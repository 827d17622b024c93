import Mathlib.Data.List.Induction
import Woeful.Lib.Log
import Woeful.Frames

/-!
# The two ways to give credit back

`handle_data` and `update_streams` both reset an exhausted stream to `BUFFER_COUNT` and send
a CONTINUE, and both look at `has_backpressure` and `send_queue_len` first. The one wants
backpressure and the other wants none, so they agree only where neither does anything: with
backpressure and a full queue, or without and a queue that is more than full
(`agree_iff_neither`).

`Traced` is the server together with what its websockets saw: their frames and their drains.
Whether a websocket is under pressure the server knows from the answers to DATA alone. As long
as no other frame is answered `BACKPRESSURE`, the flag is set whenever there is pressure, and
until the next drain (`Flagged`); so no sweep sends a CONTINUE under pressure, and
`handle_data` is not to renew at all, which it does only with the flag (`State.replenishes`
is the condition, `replenish_ok_iff` the result).
-/

namespace Woeful

open Memory Transition Log

variable {env : Env} {s t : State} {m : Nat} {id : UInt32} {l : Label}

/-! ## One stream and two decisions -/

/-- Stream `id` got its credit back, and its client was told. -/
structure GivenBack (m : Nat) (id : UInt32) (s t : State) : Prop where
  /-- the stream has a full window -/
  buffer : (t.stream m id).map (·.buffer) = some bufferCount
  /-- a CONTINUE says so -/
  frame : ∃ frames, t.sentTo m = s.sentTo m ++ frames ∧ grantFrame id ∈ frames

/-- The stream, with the credit for one packet. -/
def State.withLastCredit (s : State) (m : Nat) (id : UInt32) : State := s.setBuffer m id 1

/-- The decision of `handle_data` about the stream of a DATA that takes the last credit. -/
def State.GivesInData (env : Env) (s : State) (m : Nat) (packet : WispPacket) : Prop :=
  GivenBack m packet.streamId (s.withLastCredit m packet.streamId)
    ((s.withLastCredit m packet.streamId).handleData env m packet).2

/-- The decision of `update_streams` about an exhausted stream. -/
def State.GivesInSweep (env : Env) (s : State) (m : Nat) (id : UInt32) : Prop :=
  GivenBack m id s (s.updateStreams env m)

/-- For every exhausted TCP stream the decisions are the same. -/
def PathsAgree (env : Env) (s : State) : Prop :=
  ∀ m d packet, s.stream m packet.streamId = some d → d.streamType = 0x01 → d.buffer = 0 →
    (s.GivesInData env m packet ↔ s.GivesInSweep env m packet.streamId)

/-- For no exhausted TCP stream does either of them decide to give anything: there is
backpressure and the queue is full, or there is none and it is more than full. -/
def NeitherGives (s : State) : Prop :=
  ∀ m id d, s.stream m id = some d → d.streamType = 0x01 → d.buffer = 0 →
    s.hasBackpressure m = true ∧ maxQueue ≤ s.watcher.sendQueueLen ∨
      s.hasBackpressure m = false ∧ maxQueue < s.watcher.sendQueueLen

namespace State

theorem stream_withLastCredit {d : SocketStreamData} (hd : s.stream m id = some d) :
    (s.withLastCredit m id).stream m id = some { d with buffer := 1 } := by
  rw [withLastCredit, stream_setBuffer, if_pos ⟨rfl, rfl⟩, hd]
  rfl

/-- **`handle_data` decides** by backpressure and a queue that is not full. -/
theorem givesInData_iff {packet : WispPacket} {d : SocketStreamData}
    (hd : s.stream m packet.streamId = some d) (htype : d.streamType = 0x01) :
    s.GivesInData env m packet ↔
      s.hasBackpressure m = true ∧ s.watcher.sendQueueLen < maxQueue := by
  have hlast := stream_withLastCredit hd
  have htcp : d.streamType ≠ 0x02 := by
    rw [htype]
    decide
  have hpress : (s.withLastCredit m packet.streamId).hasBackpressure m = s.hasBackpressure m :=
    hasBackpressure_modifyManager fun _ => rfl
  have hstream := @stream_handleData env _ _ m packet.streamId _ _ hlast
  have hsent := @sentTo_handleData env _ _ _ _ hlast
  have hused : (1 : UInt32) - 1 = 0 := by decide
  have hfull : (0 : UInt32) ≠ bufferCount := by decide
  rw [hpress] at hstream hsent
  constructor
  · rintro ⟨hbuffer, -⟩
    rw [hstream, if_pos ⟨rfl, rfl, htcp⟩] at hbuffer
    by_contra hnot
    rw [if_neg fun h => hnot h.2] at hbuffer
    exact hfull (hused.symm.trans (Option.some.inj hbuffer))
  · intro hrenew
    refine ⟨?_, ⟨[grantFrame packet.streamId], ?_, List.mem_singleton_self _⟩⟩
    · rw [hstream, if_pos ⟨rfl, rfl, htcp⟩, if_pos ⟨hused, hrenew⟩]
      rfl
    · rw [hsent, if_pos ⟨htcp, hused, hrenew⟩]

/-- **`update_streams` decides** by no backpressure and a queue that is not more than full. -/
theorem givesInSweep_iff {d : SocketStreamData} (hd : s.stream m id = some d)
    (hzero : d.buffer = 0) : s.GivesInSweep env m id ↔ s.renews m := by
  constructor
  · rintro ⟨hbuffer, -⟩
    by_contra hnot
    rw [updateStreams_of_not_renews hnot, hd, Option.map_some, hzero] at hbuffer
    exact absurd (Option.some.inj hbuffer) (by decide)
  · intro hrenew
    refine ⟨?_, ?_⟩
    · rw [stream_updateStreams hrenew, if_pos rfl, hd, Option.map_some, Option.map_some,
        SocketStreamData.renew, if_pos hzero]
    · obtain ⟨frames, hsent, -, hcount⟩ := @sentTo_updateStreams env _ _ hrenew
      exact ⟨frames, hsent, List.count_pos_iff.mp (by rw [hcount id d hd hzero]; exact Nat.one_pos)⟩

end State

/-- **The two paths agree** exactly if neither gives anything. -/
theorem agree_iff_neither : PathsAgree env s ↔ NeitherGives s := by
  have hdecide : ∀ m, ((s.hasBackpressure m = true ∧ s.watcher.sendQueueLen < maxQueue) ↔
      s.renews m) ↔ s.hasBackpressure m = true ∧ maxQueue ≤ s.watcher.sendQueueLen ∨
        s.hasBackpressure m = false ∧ maxQueue < s.watcher.sendQueueLen := by
    intro m
    rw [State.renews]
    cases s.hasBackpressure m <;> simp
  constructor
  · intro h m id d hd htype hzero
    have hagree := h m d ⟨packetData, id, []⟩ hd htype hzero
    rw [State.givesInData_iff hd htype, State.givesInSweep_iff hd hzero] at hagree
    exact (hdecide m).mp hagree
  · intro h m d packet hd htype hzero
    rw [State.givesInData_iff hd htype, State.givesInSweep_iff hd hzero]
    exact (hdecide m).mpr (h m packet.streamId d hd htype hzero)

/-! ## What a websocket sees -/

/-- What happens to the websockets, in order. -/
inductive Mark where
  /-- the websocket of `m` drains -/
  | drained (m : Nat)
  /-- something is logged -/
  | event (e : Event)
  deriving DecidableEq, Repr

/-- A send on the websocket of `m` reports `BACKPRESSURE`. -/
def Mark.presses (m : Nat) : Mark → Bool
  | .event (.sent m' _ .backpressure _) => m' = m
  | _ => false

/-- A CONTINUE is sent to `m` for one of its streams. -/
def Event.Renews (m : Nat) : Event → Prop
  | .sent m' packet _ _ => m' = m ∧ packet.packetType = packetContinue ∧ packet.streamId ≠ 0
  | _ => False

/-- A send on the websocket of `m` has reported `BACKPRESSURE` since its last drain. -/
def Pressed (m : Nat) (trace : List Mark) : Prop :=
  Since (fun mark => mark.presses m = true) (· = .drained m) trace

/-- There is no CONTINUE under backpressure. -/
def NoneUnderPressure (trace : List Mark) : Prop :=
  Throughout (fun pre mark => ∀ m e, mark = .event e → e.Renews m → ¬ Pressed m pre) trace

/-- The server, and what its websockets saw. -/
structure Traced where
  /-- the server -/
  server : State
  /-- what the websockets saw -/
  trace : List Mark := []

/-- The drain a step begins with. -/
def Label.drains : Label → List Mark
  | .loop (.drain m) => [.drained m]
  | _ => []

/-- The marks of a step from `s` to `t`. -/
def marksOf (s t : State) (l : Label) : List Mark :=
  l.drains ++ (t.log.drop s.log.length).map .event

/-- The server with its trace. -/
def traced (env : Env) : System Traced Label where
  init := { server := State.initial env }
  step σ l := (σ.server.step env l).map fun t => ⟨t, σ.trace ++ marksOf σ.server t l⟩

/-! ## The condition -/

/-- `handle_data` takes the branch that renews. -/
def State.renewsInData (s : State) (m : Nat) (packet : WispPacket) : Bool :=
  (s.stream m packet.streamId).any fun d => d.streamType ≠ 0x02 && d.buffer - 1 = 0 &&
    s.hasBackpressure m && s.watcher.sendQueueLen < maxQueue

/-- `handle_data` takes it in this step. -/
def State.renewsOn (s : State) : Label → Bool
  | .loop (.message m view) =>
    (WispPacket.parse view (UInt64.ofNat view.length)).toOption.any fun packet =>
      packet.packetType = packetData && s.renewsInData m packet
  | _ => false

/-- `ws->send` reports no `BACKPRESSURE`, or reports it to `send_data`, which returns it. -/
def Event.heeded : Event → Bool
  | .sent _ packet status _ => packet.packetType = packetData || status ≠ .backpressure
  | _ => true

/-- Whether the loop thread is in the close handler of `m`. -/
def LoopState.inCloseOf (m : Nat) : LoopState → Bool
  | forceClose m' => m' = m
  | closing m' _ => m' = m
  | _ => false

/-- Whether it is closing streams there. -/
def LoopState.shuts : LoopState → Bool
  | closing _ _ => true
  | _ => false

/-- The condition on the answers of a step. The close handler may be told anything. -/
def State.heeds (env : Env) (s : State) (l : Label) : Bool :=
  s.loop.shuts || (s.step env l).all fun t => (t.log.drop s.log.length).all Event.heeded

/-- The condition on a step: `handle_data` does not renew, and `BACKPRESSURE` is the answer to
DATA only. -/
def State.replenishes (env : Env) (s : State) (l : Label) : Bool :=
  !s.renewsOn l && s.heeds env l

/-! ## What a step adds to the trace -/

theorem marksOf_eq {es : List Event} (h : t.log = s.log ++ es) :
    marksOf s t l = l.drains ++ es.map .event := by
  rw [marksOf, h, List.drop_left]

/-- The marks of a step that logs nothing. -/
theorem marksOf_of_log_eq (h : t.log = s.log) : marksOf s t l = l.drains ++ [].map .event := by
  rw [marksOf, h, List.drop_length]

theorem pressed_snoc {trace : List Mark} {mark : Mark} : Pressed m (trace ++ [mark]) ↔
    mark.presses m = true ∨ Pressed m trace ∧ mark ≠ .drained m :=
  since_snoc

theorem not_pressed_drained {trace : List Mark} : ¬ Pressed m (trace ++ [.drained m]) := by
  rw [pressed_snoc]
  simp [Mark.presses]

theorem pressed_drained_ne {trace : List Mark} {m' : Nat}
    (h : Pressed m (trace ++ [.drained m'])) : Pressed m trace :=
  (pressed_snoc.mp h).elim (fun hp => nomatch hp) (·.1)

/-- Events that report no `BACKPRESSURE`. -/
theorem pressed_append {es : List Event} {trace : List Mark}
    (hes : ∀ e ∈ es, Mark.presses m (.event e) = false) :
    Pressed m (trace ++ es.map .event) ↔ Pressed m trace := by
  induction es generalizing trace with
  | nil => rw [List.map_nil, List.append_nil]
  | cons e es ih =>
    rw [List.map_cons, List.append_cons, ih fun e' he' => hes e' (List.mem_cons_of_mem _ he'),
      pressed_snoc, hes e (List.mem_cons_self ..)]
    simp

/-- The CONTINUEs of a sweep, the first of them being entry `n` of the log. -/
def grants (env : Env) (m n : Nat) : List UInt32 → List Event
  | [] => []
  | id :: ids => .sent m (grantFrame id) (env.status n) .server :: grants env m (n + 1) ids

theorem mem_grants {ids : List UInt32} {n : Nat} {e : Event} (h : e ∈ grants env m n ids) :
    ∃ id status, e = .sent m (grantFrame id) status .server := by
  induction ids generalizing n with
  | nil => cases h
  | cons id ids ih =>
    rcases List.mem_cons.mp h with rfl | h
    · exact ⟨id, _, rfl⟩
    · exact ih h

theorem log_foldl_sendContinue (es : List ((_ : UInt32) × SocketStreamData)) (s : State) :
    (es.foldl (fun s e => s.sendContinue env m bufferCount e.1) s).log =
      s.log ++ grants env m s.log.length (es.map (·.1)) := by
  induction es generalizing s with
  | nil => exact (List.append_nil _).symm
  | cons e es ih =>
    rw [List.foldl_cons, ih, List.map_cons, grants, State.sendContinue, State.send, State.record,
      List.length_append, List.append_assoc]
    rfl

/-- What a step that sweeps logs: CONTINUEs for the manager, if it does anything. -/
theorem log_updateStreams {u : State} (hu : u.log = s.log)
    (ht : t.log = (u.updateStreams env m).log) :
    ∃ ids, t.log = s.log ++ grants env m s.log.length ids ∧ (ids ≠ [] → u.renews m) := by
  rw [ht, ← hu]
  by_cases h : u.renews m
  · rw [State.updateStreams, if_neg (State.guard_of_renews h)]
    split
    · exact ⟨[], (List.append_nil _).symm, fun _ => h⟩
    · exact ⟨_, log_foldl_sendContinue _ u, fun _ => h⟩
  · rw [State.updateStreams_of_not_renews h]
    exact ⟨[], (List.append_nil _).symm, fun hne => absurd rfl hne⟩

/-- No CONTINUE for a stream. -/
def Event.Restful (e : Event) : Prop := ∀ m, ¬ e.Renews m

theorem NoneUnderPressure.append {es : List Event} {trace : List Mark}
    (h : NoneUnderPressure trace) (hes : ∀ e ∈ es, e.Restful) :
    NoneUnderPressure (trace ++ es.map .event) := by
  refine Throughout.append h fun mark hmark pre m e he hrenews => ?_
  obtain ⟨e', he', rfl⟩ := List.mem_map.mp hmark
  obtain rfl := Mark.event.inj he
  exact absurd hrenews (hes _ he' m)

/-- **CONTINUEs that are not sent under backpressure**: there is none before, and no answer
reports any. -/
theorem NoneUnderPressure.grants {es : List Event} {trace : List Mark}
    (h : NoneUnderPressure trace) (hes : ∀ e ∈ es, ∀ m', e.Renews m' → ¬ Pressed m' trace)
    (hheeded : ∀ e ∈ es, ∀ m', Mark.presses m' (.event e) = false) :
    NoneUnderPressure (trace ++ es.map .event) := by
  induction es generalizing trace with
  | nil => rwa [List.map_nil, List.append_nil]
  | cons e es ih =>
    have hsnoc : NoneUnderPressure (trace ++ [.event e]) := by
      refine h.snoc fun m' e' he hrenews => ?_
      obtain rfl := Mark.event.inj he
      exact hes _ (List.mem_cons_self ..) m' hrenews
    rw [List.map_cons, List.append_cons]
    refine ih hsnoc (fun e' he' m' hrenews => ?_) fun e' he' =>
      hheeded e' (List.mem_cons_of_mem _ he')
    rw [pressed_snoc, hheeded e (List.mem_cons_self ..)]
    rintro (hp | ⟨hp, -⟩)
    · cases hp
    · exact hes e' (List.mem_cons_of_mem _ he') m' hrenews hp

/-- A frame that is neither DATA nor a CONTINUE for a stream, or no frame. -/
def Event.Minor : Event → Prop
  | .sent _ packet _ _ => packet.packetType ≠ packetData ∧
    (packet.packetType = packetContinue → packet.streamId = 0)
  | _ => True

/-- No frame. -/
def Event.Bare : Event → Prop
  | .sent _ _ _ _ => False
  | _ => True

namespace Event

theorem Bare.minor {e : Event} (h : e.Bare) : e.Minor := by
  cases e with
  | sent => exact h.elim
  | _ => trivial

theorem Bare.not_presses {e : Event} (h : e.Bare) : Mark.presses m (.event e) = false := by
  cases e with
  | sent => exact h.elim
  | _ => rfl

theorem Minor.restful {e : Event} (h : e.Minor) : e.Restful := by
  intro m hrenews
  cases e with
  | sent m' packet status origin => exact hrenews.2.2 (h.2 hrenews.2.1)
  | _ => exact hrenews

theorem minor_close {reason : UInt8} {status : SendStatus} {origin : Origin} :
    (Event.sent m (closeFrame reason id) status origin).Minor :=
  ⟨show packetClose ≠ packetData by decide,
    fun h => absurd h (show packetClose ≠ packetContinue by decide)⟩

/-- No answer to such a frame reports `BACKPRESSURE`, if none is to be ignored. -/
theorem not_presses {m' : Nat} {packet : WispPacket} {status : SendStatus} {origin : Origin}
    (h : (Event.sent m' packet status origin).heeded = true)
    (hty : packet.packetType ≠ packetData) :
    Mark.presses m (.event (.sent m' packet status origin)) = false := by
  cases status with
  | backpressure => simp [heeded, hty] at h
  | success => rfl
  | dropped => rfl

theorem Minor.not_presses {e : Event} (h : e.Minor) (hheeded : e.heeded = true) :
    Mark.presses m (.event e) = false := by
  cases e with
  | sent m' packet status origin => exact Event.not_presses hheeded h.1
  | _ => rfl

end Event

namespace State

/-- A CLOSE, and a descriptor that is closed. -/
theorem minor_closeStream {removePoll : Bool} {origin : Origin} :
    Extends Event.Minor s.log (s.closeStream env m id removePoll origin).log := by
  cases removePoll <;> exact (Extends.snoc Event.minor_close).trans (.snoc trivial)

/-- Without a renewal, `handle_data` sends nothing. -/
theorem minor_handleData {packet : WispPacket} (h : s.renewsInData m packet = false) :
    Extends Event.Minor s.log (s.handleData env m packet).2.log := by
  rw [handleData]
  split
  · exact .refl _ _
  · rename_i d hd
    rw [renewsInData, hd, Option.any_some] at h
    dsimp only
    split
    · rename_i htcp
      split
      · rename_i hrenew
        have hrenew : d.buffer - 1 = 0 ∧ s.hasBackpressure m = true ∧
          s.watcher.sendQueueLen < maxQueue := hrenew
        simp [htcp, hrenew] at h
      · exact .snoc trivial
    · exact .snoc trivial

theorem hasBackpressure_endHandshake {m' : Nat} :
    (s.endHandshake m).hasBackpressure m' = s.hasBackpressure m' :=
  hasBackpressure_modifyManager fun manager => by
    split <;> rfl

theorem hasBackpressure_setBackpressure_self (hm : m ∈ s.managers) :
    (s.setBackpressure m true).hasBackpressure m = true := by
  obtain ⟨manager, hlookup⟩ := Option.isSome_iff_exists.mp (AList.lookup_isSome.mpr hm)
  rw [hasBackpressure, setBackpressure, lookup_modifyManager_self, hlookup]
  rfl

/-- The closure takes note of the answer to its DATA. -/
theorem hasBackpressure_runFound_self {p : Pass} {rest : List Pass}
    (hstatus : s.sendStatus env = .backpressure) (hm : m ∈ s.managers) :
    (s.runFound env p rest m id).hasBackpressure m = true := by
  rw [runFound, deliver]
  split
  · exact hasBackpressure_setBackpressure_self
      (s := (State.sendData env { s with deferred := rest } m id _ _).2) hm
  · rename_i hne
    exact absurd hstatus hne

theorem hasBackpressure_rehash {m' : Nat} {streams : AList fun _ : UInt32 => SocketStreamData}
    (h : s.rehash m streams = some t) : t.hasBackpressure m' = s.hasBackpressure m' := by
  rw [rehash] at h
  split at h
  · cases h
  · obtain rfl := Option.some.inj (Option.ite_none_right_eq_some.mp h).2
    exact hasBackpressure_modifyManager fun _ => rfl

end State

/-! ## What a step does to the flags -/

/-- The managers are the same, and so are their flags. -/
structure SameFlags (s t : State) : Prop where
  /-- no websocket opens -/
  id : t.id = s.id
  /-- no manager comes or goes -/
  alive : ∀ m, m ∈ t.managers ↔ m ∈ s.managers
  /-- no flag is stored to -/
  flag : ∀ m, t.hasBackpressure m = s.hasBackpressure m
  /-- the loop thread does not leave a close handler -/
  inCloseOf : ∀ m, s.loop.inCloseOf m = true → t.loop.inCloseOf m = true

/-- It is not in one. -/
theorem SameFlags.of_open {a : LoopState} (hsame : SameTable s t)
    (hflag : ∀ m, t.hasBackpressure m = s.hasBackpressure m) (hl : s.loop = a)
    (ha : ∀ m, a.inCloseOf m = false) : SameFlags s t where
  id := hsame.id
  alive := hsame.alive
  flag := hflag
  inCloseOf m hclosing := by
    rw [hl, ha] at hclosing
    cases hclosing

/-- Another thread moves. -/
theorem SameFlags.of_aside (hsame : SameTable s t) (hmanagers : t.managers = s.managers)
    (hloop : t.loop = s.loop) : SameFlags s t where
  id := hsame.id
  alive := hsame.alive
  flag _ := State.hasBackpressure_of_managers hmanagers
  inCloseOf _ h := hloop ▸ h

/-- What a step sends and what it does to the flags, if `handle_data` does not renew. -/
inductive FlagMove (env : Env) (s t : State) : Label → Prop where
  /-- a websocket opens -/
  | opened : t = s.construct env → FlagMove env s t (.loop .opened)
  /-- it drains -/
  | drain {m : Nat} : s.loop = .idle → t = s.drain env m → FlagMove env s t (.loop (.drain m))
  /-- a closure sends DATA -/
  | deliver {p : Pass} {rest : List Pass} {m : Nat} {id : UInt32} : s.loop = .idle →
      m ∈ s.managers → t = s.runFound env p rest m id → FlagMove env s t (.loop .deferred)
  /-- a closure sweeps -/
  | sweep {m : Nat} {ms : List Nat} : s.loop = .sweep (m :: ms) → m ∈ s.managers →
      t = { s.updateStreams env m with loop := .sweep ms } → FlagMove env s t (.loop .resume)
  /-- a websocket closes -/
  | forceClose {m : Nat} : s.loop = .idle → t = s.forceClose m →
      FlagMove env s t (.loop (.close m))
  /-- a stream of it is closed -/
  | closeNext {m : Nat} {id : UInt32} {ids : List UInt32} : s.loop = .closing m (id :: ids) →
      m ∈ s.managers → t = s.closeNext env m id ids → FlagMove env s t (.loop .resume)
  /-- its manager is destroyed -/
  | destruct {m : Nat} : s.loop = .closing m [] → t = s.destruct m →
      FlagMove env s t (.loop .resume)
  /-- the loop thread does anything else -/
  | minor {l : Label} : s.loop.shuts = false → l.drains = [] →
      Extends Event.Minor s.log t.log → SameFlags s t → FlagMove env s t l
  /-- another thread moves -/
  | aside {l : Label} : l.drains = [] → Extends Event.Bare s.log t.log → SameFlags s t →
      FlagMove env s t l

theorem LoopMove.flagMove {l : LoopLabel} (hs : LoopMove env s l t) (hw : WellBound s)
    (hg : s.renewsOn (.loop l) = false) : FlagMove env s t (.loop l) := by
  have hloop := hw.loop
  have hback : ∀ {u : State}, u.managers = s.managers →
      ∀ m, u.hasBackpressure m = s.hasBackpressure m :=
    fun h _ => State.hasBackpressure_of_managers h
  have hshut : ∀ {a : LoopState}, s.loop = a → a.shuts = false → s.loop.shuts = false :=
    fun h ha => h ▸ ha
  cases hs with
  | opened hi => exact .opened rfl
  | info hi hm hp hty =>
    exact .minor (hshut hi rfl) rfl (.refl _ _)
      (.of_open (.refl s) (hback rfl) hi fun _ => rfl)
  | other hi hm hp hc hd =>
    exact .minor (hshut hi rfl) rfl (.refl _ _) (.of_open (.endHandshake s _)
      (fun _ => State.hasBackpressure_endHandshake) hi fun _ => rfl)
  | connect hi hm hp hty hcm hid =>
    exact .minor (hshut hi rfl) rfl (.refl _ _) (.of_open
      ((SameTable.endHandshake s _).trans (.setLoop _ _))
      (fun _ => State.hasBackpressure_endHandshake) hi fun _ => rfl)
  | refuse hi hm hp hty hcm hid =>
    exact .minor (hshut hi rfl) rfl (.snoc Event.minor_close) (.of_open
      ((SameTable.endHandshake s _).trans (.refuse _ _))
      (fun _ => State.hasBackpressure_endHandshake) hi fun _ => rfl)
  | @data m view packet hi hm hp hty =>
    have hnot : s.renewsInData m packet = false := by
      rw [State.renewsOn, hp] at hg
      simpa [Except.toOption, hty] using hg
    refine .minor (hshut hi rfl) rfl
      (State.minor_handleData (s := s.endHandshake m) ?_) (.of_open
      ((SameTable.endHandshake s _).trans (.handleData _ _ _)) (fun _ => ?_) hi fun _ => rfl)
    · rw [State.renewsInData, State.stream_endHandshake, State.hasBackpressure_endHandshake]
      exact hnot
    · rw [State.hasBackpressure_handleData, State.hasBackpressure_endHandshake]
  | drain hi hm => exact .drain hi rfl
  | close hi hm => exact .forceClose hi rfl
  | @deferred p rest hi hd =>
    rcases deferred_cases hw.table p rest rfl with ⟨heq, -⟩ | ⟨m, id, hb, heq⟩
    · rw [heq]
      exact .minor (hshut hi rfl) rfl (.refl _ _)
        (.of_open (.of_eq rfl rfl rfl rfl) (hback rfl) hi fun _ => rfl)
    · exact .deliver hi (State.mem_managers_of_binding hb) heq
  | socketFail hl =>
    exact .minor (hshut hl rfl) rfl (.snoc Event.minor_close)
      (.of_open (.refuse s _) (hback rfl) hl fun _ => rfl)
  | socket hfd hl =>
    exact .minor (hshut hl rfl) rfl (.refl _ _)
      ⟨rfl, fun _ => Iff.rfl, hback rfl, fun _ h => by
        rw [hl] at h
        cases h⟩
  | connected hl =>
    exact .minor (hshut hl rfl) rfl (.refl _ _)
      (.of_open (.setLoop s _) (hback rfl) hl fun _ => rfl)
  | connectFail hl =>
    exact .minor (hshut hl rfl) rfl ((Extends.snoc trivial).trans (.snoc Event.minor_close))
      ⟨rfl, fun _ => Iff.rfl, hback rfl, fun _ h => by
        rw [hl] at h
        cases h⟩
  | pushFd hl =>
    exact .minor (hshut hl rfl) rfl (.refl _ _)
      (.of_open (.pushFd s _ _ _) (hback rfl) hl fun _ => rfl)
  | insert hl hfree =>
    exact .minor (hshut hl rfl) rfl (.snoc trivial)
      ⟨rfl, fun _ => State.mem_modifyManager,
        fun _ => State.hasBackpressure_modifyManager fun _ => rfl, fun _ h => by
          rw [hl] at h
          cases h⟩
  | listIds hl hfree =>
    refine .minor (hshut hl rfl) rfl (.refl _ _)
      ⟨rfl, fun _ => Iff.rfl, hback rfl, fun _ h => ?_⟩
    rw [hl] at h
    exact h
  | @closeNext m id ids hl hfree =>
    rw [hl] at hloop
    exact .closeNext hl hloop.1 rfl
  | destruct hl => exact .destruct hl rfl
  | closeFound hl hfree =>
    exact .minor (hshut hl rfl) rfl State.minor_closeStream
      ⟨rfl, fun _ => State.mem_closeStream,
        fun _ => State.hasBackpressure_closeStream, fun _ h => by
          rw [hl] at h
          cases h⟩
  | decrement hl =>
    exact .minor (hshut hl rfl) rfl (.refl _ _)
      (.of_open (.of_eq rfl rfl rfl rfl) (hback rfl) hl fun _ => rfl)
  | check hl =>
    exact .minor (hshut hl rfl) rfl (.refl _ _)
      (.of_open (.of_eq rfl rfl rfl rfl) (hback rfl) hl fun _ => rfl)
  | sweepDone hl =>
    exact .minor (hshut hl rfl) rfl (.refl _ _)
      (.of_open (.setLoop s _) (hback rfl) hl fun _ => rfl)
  | @sweep m ms hl =>
    rw [hl] at hloop
    exact .sweep hl (hloop m (List.mem_cons_self ..)) rfl

theorem step_flagMove (hs : s.step env l = some t) (hw : WellBound s)
    (hg : s.renewsOn l = false) : FlagMove env s t l := by
  cases l with
  | loop l => exact (loopStep_cases hs).flagMove hw hg
  | watch l =>
    have hmove := watchStep_cases hs
    refine .aside rfl ?_ (.of_aside hmove.sameTable hmove.managers hmove.loop)
    cases hmove with
    | read => exact .snoc trivial
    | _ => exact .refl _ _
  | worker l =>
    have hmove := workerStep_cases hs
    refine .aside rfl ?_ (.of_aside hmove.sameTable hmove.managers hmove.loop)
    cases hmove with
    | begin => exact .snoc trivial
    | fault => exact .snoc trivial
    | write => exact .snoc trivial
    | _ => exact .refl _ _
  | rehash m' streams =>
    obtain ⟨hsame, heq⟩ := State.rehash_frame hs
    refine .aside rfl (.of_eq (by rw [heq])) ⟨hsame.id, hsame.alive, fun _ => ?_, fun _ h => ?_⟩
    · exact State.hasBackpressure_rehash hs
    · rw [heq]
      exact h
  | rehashSockets ms =>
    obtain ⟨-, -, rfl⟩ := State.rehashSockets_frame hs
    exact .aside rfl (.refl _ _) ⟨rfl, fun _ => Iff.rfl, fun _ => rfl, fun _ h => h⟩

/-! ## The flag -/

/-- Where a websocket is under pressure its manager knows, or is in its close handler, or gone. -/
def Flagged (trace : List Mark) (s : State) : Prop :=
  ∀ m, Pressed m trace → m < s.id ∧
    (m ∈ s.managers → s.hasBackpressure m = true ∨ s.loop.inCloseOf m = true)

namespace Flagged

variable {trace : List Mark}

/-- The flags are the same, and nothing reports `BACKPRESSURE`. -/
theorem minor {es : List Event} (h : Flagged trace s) (hsame : SameFlags s t)
    (hes : ∀ e ∈ es, ∀ m, Mark.presses m (.event e) = false) :
    Flagged (trace ++ es.map .event) t := by
  intro m hpressed
  obtain ⟨hlt, halive⟩ := h m ((pressed_append fun e he => hes e he m).mp hpressed)
  refine ⟨hsame.id ▸ hlt, fun hm => ?_⟩
  rcases halive ((hsame.alive m).mp hm) with hflag | hclosing
  · exact Or.inl ((hsame.flag m).trans hflag)
  · exact Or.inr (hsame.inCloseOf m hclosing)

/-- A websocket drains: its flag is cleared, and so is the pressure. -/
theorem drain {es : List Event} (h : Flagged trace s) (hi : s.loop = .idle)
    (ht : t = s.drain env m) (hes : ∀ e ∈ es, ∀ m, Mark.presses m (.event e) = false) :
    Flagged (trace ++ [.drained m] ++ es.map .event) t := by
  subst ht
  intro m' hpressed
  have hold := (pressed_append fun e he => hes e he m').mp hpressed
  have hne : m' ≠ m := by
    rintro rfl
    exact not_pressed_drained hold
  have hsame := @SameTable.drain env s m
  obtain ⟨hlt, halive⟩ := h m' (pressed_drained_ne hold)
  refine ⟨hsame.id ▸ hlt, fun hm => ?_⟩
  rcases halive ((hsame.alive m').mp hm) with hflag | hclosing
  · left
    change ((s.setBackpressure m false).updateStreams env m).hasBackpressure m' = true
    rw [State.hasBackpressure_updateStreams, State.hasBackpressure_setBackpressure_ne hne, hflag]
  · rw [hi] at hclosing
    cases hclosing

/-- A closure sends DATA: it takes note of the answer. -/
theorem deliver {p : Pass} {rest : List Pass} (h : Flagged trace s) (hw : WellBound s)
    (hi : s.loop = .idle) (hm : m ∈ s.managers) {origin : Origin} {data : Bytes}
    (ht : t = s.runFound env p rest m id) :
    Flagged (trace ++ [.event (.sent m ⟨packetData, id, data⟩ (s.sendStatus env) origin)]) t := by
  subst ht
  intro m' hpressed
  have hsame := @State.sameTable_runFound env s p rest m id
  rcases pressed_snoc.mp hpressed with hnew | ⟨hold, -⟩
  · -- it was answered `BACKPRESSURE`
    have hanswer : s.sendStatus env = .backpressure ∧ m = m' := by
      cases hstatus : s.sendStatus env with
      | backpressure =>
        rw [hstatus] at hnew
        exact ⟨rfl, of_decide_eq_true hnew⟩
      | success | dropped =>
        rw [hstatus] at hnew
        cases hnew
    obtain ⟨hstatus, rfl⟩ := hanswer
    refine ⟨hsame.id ▸ hw.table.fresh m hm, fun _ => Or.inl ?_⟩
    exact State.hasBackpressure_runFound_self hstatus hm
  · obtain ⟨hlt, halive⟩ := h m' hold
    refine ⟨hsame.id ▸ hlt, fun hm' => ?_⟩
    rcases halive ((hsame.alive m').mp hm') with hflag | hclosing
    · exact Or.inl (State.hasBackpressure_runFound hflag)
    · rw [hi] at hclosing
      cases hclosing

/-- The close handler of a websocket: whatever it is told, it sends nothing else. -/
theorem closing {es : List Event} (h : Flagged trace s) (hid : t.id = s.id)
    (hsame : ∀ m, m ∈ t.managers ↔ m ∈ s.managers) (hlt : m < s.id)
    (hmine : ∀ e ∈ es, ∀ m', m' ≠ m → Mark.presses m' (.event e) = false)
    (hflag : ∀ m', m' ≠ m → t.hasBackpressure m' = s.hasBackpressure m')
    (hl : ∀ m', s.loop.inCloseOf m' = true → m' = m) (ht : t.loop.inCloseOf m = true) :
    Flagged (trace ++ es.map .event) t := by
  intro m' hpressed
  by_cases hne : m' = m
  · subst hne
    exact ⟨hid ▸ hlt, fun _ => Or.inr ht⟩
  · obtain ⟨hold, halive⟩ := h m' ((pressed_append fun e he => hmine e he m' hne).mp hpressed)
    refine ⟨hid ▸ hold, fun hm => ?_⟩
    rcases halive ((hsame m').mp hm) with hback | hclosing
    · exact Or.inl ((hflag m' hne).trans hback)
    · exact absurd (hl m' hclosing) hne

/-- A manager is destroyed. -/
theorem destruct (h : Flagged trace s) (hl : s.loop = .closing m []) :
    Flagged trace (s.destruct m) := by
  intro m' hpressed
  obtain ⟨hlt, halive⟩ := h m' hpressed
  refine ⟨hlt, fun hm => ?_⟩
  obtain ⟨hne, hm⟩ := State.mem_destruct.mp hm
  rcases halive hm with hflag | hclosing
  · exact Or.inl ((State.hasBackpressure_destruct hne).trans hflag)
  · rw [hl] at hclosing
    exact absurd (of_decide_eq_true hclosing).symm hne

/-- A websocket opens: nobody has reported anything about it. -/
theorem opened {es : List Event} (h : Flagged trace s)
    (hes : ∀ e ∈ es, ∀ m, Mark.presses m (.event e) = false) :
    Flagged (trace ++ es.map .event) (s.construct env) := by
  intro m hpressed
  obtain ⟨hlt, halive⟩ := h m ((pressed_append fun e he => hes e he m).mp hpressed)
  have hne : m ≠ s.id := Nat.ne_of_lt hlt
  refine ⟨Nat.lt_succ_of_lt hlt, fun hm => ?_⟩
  rw [State.hasBackpressure_construct hne]
  exact halive ((State.mem_construct.mp hm).resolve_left hne)

end Flagged

/-! ## The result -/

/-- What the condition on the answers says about the events of a step. -/
theorem State.heeded_of_heeds {es : List Event} (hheeds : s.heeds env l = true)
    (hs : s.step env l = some t) (hlog : t.log = s.log ++ es)
    (hopen : s.loop.shuts = false) : ∀ e ∈ es, e.heeded = true := by
  rw [State.heeds, hopen, Bool.false_or, hs, Option.all_some, hlog, List.drop_left] at hheeds
  exact List.all_eq_true.mp hheeds

/-- A CONTINUE of a sweep. -/
theorem Event.grant_not_presses {ids : List UInt32} {n : Nat} {e : Event} {m' : Nat}
    (he : e ∈ grants env m n ids) (hheeded : e.heeded = true) :
    Mark.presses m' (.event e) = false := by
  obtain ⟨id, status, rfl⟩ := mem_grants he
  exact Event.not_presses hheeded (show packetContinue ≠ packetData by decide)

/-- The sweep of a manager whose websocket is not under pressure. -/
theorem NoneUnderPressure.sweep {trace : List Mark} {ids : List UInt32} {n : Nat}
    (h : NoneUnderPressure trace) (hpressed : ids ≠ [] → ¬ Pressed m trace)
    (hheeded : ∀ e ∈ Woeful.grants env m n ids, e.heeded = true) :
    NoneUnderPressure (trace ++ (Woeful.grants env m n ids).map .event) := by
  refine h.grants (fun e he m' hrenews => ?_) fun e he m' =>
    Event.grant_not_presses he (hheeded e he)
  obtain ⟨id, status, rfl⟩ := mem_grants he
  obtain rfl : m = m' := hrenews.1
  refine hpressed fun hnil => ?_
  rw [hnil] at he
  cases he

/-- **A step under the condition sends no CONTINUE under backpressure.** -/
theorem NoneUnderPressure.step {trace : List Mark} (hs : s.step env l = some t)
    (hw : WellBound s) (hg : s.replenishes env l = true) (hflag : Flagged trace s)
    (h : NoneUnderPressure trace) : NoneUnderPressure (trace ++ marksOf s t l) := by
  rw [State.replenishes, Bool.and_eq_true, Bool.not_eq_true'] at hg
  have hheeded := fun {es} => @State.heeded_of_heeds env s t l es hg.2 hs
  cases step_flagMove hs hw hg.1 with
  | opened ht =>
    have hlog : t.log = s.log ++ [.sent s.id (grantFrame 0) (env.status s.log.length) .server] := by
      rw [ht]
      rfl
    rw [marksOf_eq hlog]
    refine h.append fun e he m hrenews => ?_
    obtain rfl := List.mem_singleton.mp he
    exact hrenews.2.2 rfl
  | @drain m hi ht =>
    obtain ⟨ids, hlog, -⟩ :=
      log_updateStreams (s := s) (u := s.setBackpressure m false) rfl (congrArg State.log ht)
    rw [marksOf_eq hlog, ← List.append_assoc]
    have hdrained : NoneUnderPressure (trace ++ [.drained m]) :=
      h.snoc fun _ _ he => Mark.noConfusion he
    exact hdrained.sweep (fun _ => not_pressed_drained)
      (hheeded hlog (congrArg LoopState.shuts hi))
  | deliver hi hm ht =>
    rw [marksOf_eq (ht ▸ State.log_runFound)]
    refine h.append fun e he m hrenews => ?_
    obtain rfl := List.mem_singleton.mp he
    exact absurd hrenews.2.1 (show packetData ≠ packetContinue by decide)
  | @sweep m ms hl hm ht =>
    have hsweep : t.log = (s.updateStreams env m).log := by rw [ht]
    obtain ⟨ids, hlog, hrenews⟩ := log_updateStreams rfl hsweep
    rw [marksOf_eq hlog]
    refine h.sweep (fun hne hpressed => ?_) (hheeded hlog (congrArg LoopState.shuts hl))
    -- the flag would be set
    rcases (hflag m hpressed).2 hm with hback | hclosing
    · rw [(hrenews hne).1] at hback
      cases hback
    · rw [hl] at hclosing
      cases hclosing
  | forceClose hi ht =>
    have hlog : t.log = s.log := by
      rw [ht]
      rfl
    rw [marksOf_of_log_eq hlog]
    exact h.append nofun
  | @closeNext m id ids hl hm ht =>
    obtain ⟨es, hlog, hes⟩ := @State.minor_closeStream env s m id true .server
    have hlog' : t.log = s.log ++ es := by
      rw [ht]
      exact hlog
    rw [marksOf_eq hlog']
    exact h.append fun e he => (hes e he).restful
  | destruct hl ht =>
    have hlog : t.log = s.log := by
      rw [ht]
      rfl
    rw [marksOf_of_log_eq hlog]
    exact h.append nofun
  | minor hopen hdrains hlog hsame =>
    obtain ⟨es, hlog, hes⟩ := hlog
    rw [marksOf_eq hlog, hdrains]
    exact h.append fun e he => (hes e he).restful
  | aside hdrains hlog hsame =>
    obtain ⟨es, hlog, hes⟩ := hlog
    rw [marksOf_eq hlog, hdrains]
    exact h.append fun e he => (hes e he).minor.restful

/-- **Pressure is known**, under the condition. -/
theorem Flagged.step {trace : List Mark} (hs : s.step env l = some t) (hw : WellBound s)
    (hg : s.replenishes env l = true) (h : Flagged trace s) :
    Flagged (trace ++ marksOf s t l) t := by
  rw [State.replenishes, Bool.and_eq_true, Bool.not_eq_true'] at hg
  have hheeded := fun {es} => @State.heeded_of_heeds env s t l es hg.2 hs
  cases step_flagMove hs hw hg.1 with
  | opened ht =>
    have hlog : t.log = s.log ++ [.sent s.id (grantFrame 0) (env.status s.log.length) .server] := by
      rw [ht]
      rfl
    have hi : s.loop = .idle := (Option.ite_none_right_eq_some.mp hs).1
    have hopen := hheeded hlog (congrArg LoopState.shuts hi)
    rw [marksOf_eq hlog, ht]
    refine h.opened fun e he m => ?_
    obtain rfl := List.mem_singleton.mp he
    exact Event.not_presses (hopen _ he) (show packetContinue ≠ packetData by decide)
  | @drain m hi ht =>
    obtain ⟨ids, hlog, -⟩ :=
      log_updateStreams (s := s) (u := s.setBackpressure m false) rfl (congrArg State.log ht)
    have hopen := hheeded hlog (congrArg LoopState.shuts hi)
    rw [marksOf_eq hlog, ← List.append_assoc]
    exact h.drain hi ht fun e he m => Event.grant_not_presses he (hopen e he)
  | deliver hi hm ht =>
    rw [marksOf_eq (ht ▸ State.log_runFound)]
    exact h.deliver hw hi hm ht
  | @sweep m ms hl hm ht =>
    have hsweep : t.log = (s.updateStreams env m).log := by rw [ht]
    obtain ⟨ids, hlog, -⟩ := log_updateStreams rfl hsweep
    have hopen := hheeded hlog (congrArg LoopState.shuts hl)
    have hsame : SameFlags s t := by
      rw [ht]
      exact .of_open ((SameTable.updateStreams s m).trans (.setLoop _ _))
        (fun _ => State.hasBackpressure_updateStreams) hl fun _ => rfl
    rw [marksOf_eq hlog]
    exact h.minor hsame fun e he m => Event.grant_not_presses he (hopen e he)
  | @forceClose m hi ht =>
    have hm : m ∈ s.managers := (Option.ite_none_right_eq_some.mp hs).1.2
    have hlog : t.log = s.log := by
      rw [ht]
      rfl
    rw [marksOf_of_log_eq hlog, ht]
    have hsame := SameTable.forceClose s m
    refine h.closing hsame.id hsame.alive (hw.table.fresh m hm) nofun
      (fun m' hne => State.hasBackpressure_setBackpressure_ne hne) (fun m' hclosing => ?_)
      (decide_eq_true rfl)
    rw [hi] at hclosing
    cases hclosing
  | @closeNext m id ids hl hm ht =>
    obtain ⟨fd, sock, hlog⟩ := @State.log_closeStream env s m id true .server
    have hlog' : t.log = s.log ++
        [.sent m (closeFrame 0x02 id) (s.sendStatus env) .server, .closed fd sock] := by
      rw [ht]
      exact hlog
    rw [marksOf_eq hlog', ht]
    refine h.closing rfl (fun _ => State.mem_closeStream) (hw.table.fresh m hm)
      (fun e he m' hne => ?_) (fun m' _ => State.hasBackpressure_closeStream)
      (fun m' hclosing => ?_) (decide_eq_true rfl)
    · rcases List.mem_cons.mp he with rfl | he
      · cases s.sendStatus env with
        | backpressure => exact decide_eq_false (Ne.symm hne)
        | _ => rfl
      · obtain rfl := List.mem_singleton.mp he
        rfl
    · rw [hl] at hclosing
      exact (of_decide_eq_true hclosing).symm
  | destruct hl ht =>
    have hlog : t.log = s.log := by
      rw [ht]
      rfl
    rw [marksOf_of_log_eq hlog, ht]
    exact (h.destruct hl).minor ⟨rfl, fun _ => Iff.rfl, fun _ => rfl, fun _ h => h⟩ nofun
  | minor hopen hdrains hlog hsame =>
    obtain ⟨es, hlog, hes⟩ := hlog
    rw [marksOf_eq hlog, hdrains]
    exact h.minor hsame fun e he m => (hes e he).not_presses (hheeded hlog hopen e he)
  | aside hdrains hlog hsame =>
    obtain ⟨es, hlog, hes⟩ := hlog
    rw [marksOf_eq hlog, hdrains]
    exact h.minor hsame fun e he m => (hes e he).not_presses

/-- What is known in the runs under the condition. -/
structure Traced.Known (σ : Traced) : Prop where
  /-- who is under pressure -/
  flagged : Flagged σ.trace σ.server
  /-- and that nothing was sent to them -/
  none : NoneUnderPressure σ.trace

theorem Traced.Known.of_reaches {σ : Traced}
    (h : (traced env).Reaches (fun σ l => σ.server.replenishes env l = true) σ) : σ.Known := by
  have hall : WellBound σ.server ∧ σ.Known := by
    refine h.invariant (I := fun σ => WellBound σ.server ∧ σ.Known) ?_ ?_
    · exact ⟨.initial env, fun m hpressed => absurd hpressed (not_since_nil _ _), throughout_nil⟩
    · rintro σ l τ hg hst ⟨hw, hflagged, hnone⟩
      obtain ⟨t, ht, rfl⟩ := Option.map_eq_some_iff.mp hst
      exact ⟨hw.step ht, hflagged.step ht hw hg, hnone.step ht hw hg hflagged⟩
  exact hall.2

/-- The two ways to give credit back agree in a state, and no CONTINUE was sent under
backpressure on the way to it. -/
structure ReplenishOk (env : Env) (σ : Traced) : Prop where
  /-- the paths agree -/
  agree : PathsAgree env σ.server
  /-- and no CONTINUE was sent under backpressure -/
  noneUnderPressure : NoneUnderPressure σ.trace

/-- **Credit is given back by one policy** in a state that runs under the condition reach, if
and only if neither path gives any there. -/
theorem replenish_ok_iff {σ : Traced}
    (h : (traced env).Reaches (fun σ l => σ.server.replenishes env l = true) σ) :
    ReplenishOk env σ ↔ NeitherGives σ.server := by
  have hnone : NoneUnderPressure σ.trace := (Traced.Known.of_reaches h).none
  exact ⟨fun hok => agree_iff_neither.mp hok.agree,
    fun hneither => ⟨agree_iff_neither.mpr hneither, hnone⟩⟩

/-- A DATA, a pass and its sweep, and a drain. -/
def dataThenDrain : List Label :=
  [[.loop .opened], connectLabels 0 1 7, [dataLabel 0 1 [0]], passLabels 7 [.bytes [104], .again],
    .loop .deferred :: List.replicate 4 (.loop .resume), [.loop (.drain 0)]].flatten

theorem replenish_ok_iff_dataThenDrain :
    ReplenishOk {} ((traced {}).final (fun σ l => σ.server.replenishes {} l = true)
        dataThenDrain) ↔
      NeitherGives ((traced {}).final (fun σ l => σ.server.replenishes {} l = true)
        dataThenDrain).server :=
  replenish_ok_iff (System.reaches_final _ _ _ (by decide +kernel))

/-- **Two policies**: the stream of an upload without backpressure gets no credit from
`handle_data`, and would get it from `update_streams`. -/
theorem twoPolicies_counterexample :
    ¬ ∀ (env : Env) (σ : Traced), (traced env).Reachable σ → ReplenishOk env σ := by
  intro h
  have hok := h {} _ ((traced {}).reaches_final (fun _ _ => True) uploadOnly (by decide +kernel))
  have hneither := agree_iff_neither.mp hok.agree 0 1 ⟨1, 1, 7, 0⟩ (by decide +kernel) rfl rfl
  exact absurd hneither (by decide +kernel)

end Woeful
