import Woeful.Lib.Log
import Woeful.Bindings
import Woeful.Frames

/-!
# What follows a CLOSE

DATA and CONTINUE serve a stream, a CLOSE shuts it, and a CONNECT that succeeds opens it
again. `WireMove` says what a step does in these words. `close_stream` shuts a stream and
erases it in one step, and everything that serves a stream looks it up in `streams` first;
so after its CLOSE a stream is not served (`closes_final`).

The other CLOSE is the answer to a CONNECT that fails, and `receive` sends it without a
look at `streams`: a stream that is there under the same id stays and is served on
(`servedOn_counterexample`).
-/

namespace Woeful

open Memory Transition Log

variable {env : Env} {s t : State} {m m' : Nat} {id id' : UInt32} {l : Label}

/-! ## Serving, shutting and opening a stream -/

/-- DATA and CONTINUE serve a stream. -/
def WispPacket.Serves (packet : WispPacket) : Prop :=
  packet.packetType = packetData ∨ packet.packetType = packetContinue

/-- A CLOSE for stream `id` is sent to `m`. -/
def Event.Shuts (m : Nat) (id : UInt32) : Event → Prop
  | .sent m' packet _ _ => m' = m ∧ packet.packetType = packetClose ∧ packet.streamId = id
  | _ => False

/-- A CONNECT of `m` for stream `id` succeeds. -/
def Event.Opens (m : Nat) (id : UInt32) : Event → Prop
  | .connected m' id' _ => m' = m ∧ id' = id
  | _ => False

/-- A CLOSE for stream `id` was sent to `m`, and no CONNECT for it has succeeded since. -/
def Shut (log : List Event) (m : Nat) (id : UInt32) : Prop :=
  Since (Event.Shuts m id) (Event.Opens m id) log

/-- No stream is served while it is shut. -/
def ClosesFinal (log : List Event) : Prop :=
  ∀ pre m packet status origin post, log = pre ++ .sent m packet status origin :: post →
    packet.Serves → ¬ Shut pre m packet.streamId

/-- From `s` to `t`, only streams that are present are served, the first CONTINUE of a new
websocket apart. -/
def ServesPresent (s t : State) : Prop :=
  ∃ es, t.log = s.log ++ es ∧ ∀ m packet status origin, .sent m packet status origin ∈ es →
    packet.Serves → (s.stream m packet.streamId ≠ none ∧ t.stream m packet.streamId ≠ none) ∨
      m ∉ s.managers ∧ packet = grantFrame 0

/-- An event that shuts and opens nothing, reads nothing, and serves what is bound. -/
def Event.Plain (bound : Nat → UInt32 → Option Fd) : Event → Prop
  | .sent m packet _ _ => packet.packetType ≠ packetClose ∧
      (packet.Serves → bound m packet.streamId ≠ none)
  | .connected _ _ _ => False
  | .read _ _ => False
  | _ => True

theorem not_serves_close {reason : UInt8} : ¬ (closeFrame reason id).Serves := by
  rintro (h | h)
  · exact absurd h (show packetClose ≠ packetData by decide)
  · exact absurd h (show packetClose ≠ packetContinue by decide)

/-! ## CONNECTs that fail -/

/-- Whether the stream type or the filter stops a CONNECT. -/
def WispPacket.filtered (conf : WoefulConfig) (packet : WispPacket) : Bool :=
  match ConnectPacket.parse packet.data (UInt64.ofNat packet.data.length) with
  | .error _ => false
  | .ok connectPacket =>
    SystemInterface.refusesUnread conf connectPacket.streamType connectPacket.destinationPort ||
      match cString connectPacket.destinationHostname with
      | .error _ => false
      | .ok hostname => !SystemInterface.passesFilter conf hostname connectPacket.streamType
          connectPacket.destinationPort

/-- The manager and the stream id of the CONNECT that fails in this step. -/
def State.refused? (env : Env) (s : State) : Label → Option (Nat × UInt32)
  | .loop (.message m view) =>
    match WispPacket.parse view (UInt64.ofNat view.length) with
    | .error _ => none
    | .ok packet =>
      if packet.packetType = packetConnect ∧ packet.filtered env.conf = true then
        some (m, packet.streamId)
      else none
  | .loop (.socket none) => s.loop.call?.map fun c => (c.manager, c.streamId)
  | .loop (.connect false) => s.loop.call?.map fun c => (c.manager, c.streamId)
  | _ => none

/-- The condition on a step: a CONNECT that fails is for an id that is not in `streams`. -/
def State.refusesAbsent (env : Env) (s : State) (l : Label) : Bool :=
  (s.refused? env l).all fun c => (s.stream c.1 c.2).isNone

/-- A CONNECT after which the loop thread is idle was stopped by the filter. -/
theorem filtered_of_receive {view : Bytes} {packet : WispPacket}
    (hs : s.loopStep env (.message m view) = some t)
    (hp : WispPacket.parse view (UInt64.ofNat view.length) = .ok packet)
    (hty : packet.packetType = packetConnect) (hi : t.loop = .idle) :
    packet.filtered env.conf = true := by
  rw [State.loopStep, Option.ite_none_right_eq_some] at hs
  obtain ⟨-, hs⟩ := hs
  cases hr : s.receive env m view with
  | error e =>
    rw [hr] at hs
    cases hs
  | ok u =>
    rw [hr] at hs
    obtain rfl := Option.some.inj hs
    rw [State.receive, andThen_eq_ok] at hr
    obtain ⟨packet', hp', hr⟩ := hr
    obtain rfl : packet = packet' := by
      rw [hp] at hp'
      exact Except.ok.inj hp'
    have hinfo : packet.packetType ≠ packetInfo := by
      rw [hty]
      decide
    simp only [if_neg hinfo, if_pos hty] at hr
    rw [State.handleConnect, andThen_eq_ok] at hr
    obtain ⟨connectPacket, hcp, hr⟩ := hr
    simp only [WispPacket.filtered, hcp]
    dsimp only at hr
    split at hr
    · rename_i hunread
      rw [hunread, Bool.true_or]
    · rw [andThen_eq_ok] at hr
      obtain ⟨hostname, hname, hr⟩ := hr
      simp only [hname]
      split at hr
      · -- the filter passed, and the loop thread goes on to `socket()`
        cases hr
        cases hi
      · rename_i hfails
        simp [hfails]

/-! ## What a step means for the streams -/

namespace State

variable {bound : Nat → UInt32 → Option Fd}

theorem plain_sendContinue {buffer : UInt32} (h : bound m id ≠ none) :
    Extends (Event.Plain bound) s.log (s.sendContinue env m buffer id).log :=
  .snoc ⟨show packetContinue ≠ packetClose by decide, fun _ => h⟩

/-- A sweep serves the exhausted streams, which are present. -/
theorem plain_updateStreams :
    Extends (Event.Plain s.binding) s.log (s.updateStreams env m).log := by
  rw [updateStreams]
  split
  · exact .refl _ _
  · split
    · exact .refl _ _
    · rename_i manager hm
      refine @Extends.foldl _ _ _ _ State.log _ _ (fun u e he => ?_) s
      apply plain_sendContinue
      have hmem : e ∈ manager.streams.entries := List.mem_of_mem_filter he
      rw [binding, stream, hm, Option.bind_some, AList.mem_lookup_iff.mpr hmem]
      exact Option.some_ne_none _

theorem plain_handleData {packet : WispPacket} :
    Extends (Event.Plain s.binding) s.log (s.handleData env m packet).2.log := by
  have hsubmit : ∀ task, Extends (Event.Plain s.binding) s.log (s.submitTask task).log :=
    fun _ => .snoc trivial
  rw [handleData]
  split
  · exact .refl _ _
  · rename_i d hd
    have hbound : s.binding m packet.streamId ≠ none := by
      rw [binding, hd]
      exact Option.some_ne_none _
    dsimp only
    split
    · split
      · exact (hsubmit _).trans (plain_sendContinue (s := State.setBuffer _ _ _ _) hbound)
      · exact hsubmit _
    · exact hsubmit _

end State

/-- What a step means for the streams that are served, shut and opened. -/
inductive WireMove (env : Env) (s : State) (l : Label) (t : State) : Prop where
  /-- streams that are present are served -/
  | quiet : t.id = s.id → t.binding = s.binding →
      Extends (Event.Plain s.binding) s.log t.log → WireMove env s l t
  /-- a websocket opens -/
  | opened {status : SendStatus} : t.id = s.id + 1 → t.binding = s.binding →
      t.log = s.log ++ [.sent s.id (grantFrame 0) status .server] → WireMove env s l t
  /-- the watcher reads -/
  | read {fd : Fd} {r : Read} {w : WatchLabel} : l = .watch w → t.id = s.id →
      t.binding = s.binding → t.log = s.log ++ [.read fd r] → WireMove env s l t
  /-- a CONNECT fails -/
  | refused {m : Nat} {id : UInt32} {log : List Event} {status : SendStatus} :
      m ∈ s.managers → s.refused? env l = some (m, id) → t.id = s.id → t.binding = s.binding →
      Extends (Event.Plain s.binding) s.log log →
      t.log = log ++ [.sent m (closeFrame 0x41 id) status .server] → WireMove env s l t
  /-- a CONNECT succeeds -/
  | stored {m : Nat} {id : UInt32} {fd : Fd} {sock : Option Nat} : t.id = s.id →
      (∀ m' id', t.binding m' id' = if m' = m ∧ id' = id then some fd else s.binding m' id') →
      t.log = s.log ++ [.connected m id sock] → WireMove env s l t
  /-- a stream is closed -/
  | closed {m : Nat} {id : UInt32} {status : SendStatus} {origin : Origin} {fd : Fd}
      {sock : Option Nat} : s.binding m id ≠ none → t.id = s.id →
      (∀ m' id', t.binding m' id' = if m' = m ∧ id' = id then none else s.binding m' id') →
      t.log = s.log ++ [.sent m (closeFrame 0x02 id) status origin, .closed fd sock] →
      WireMove env s l t

/-- A step with the frame that serves streams that are present. -/
theorem SameTable.wireMove (h : SameTable s t)
    (hlog : Extends (Event.Plain s.binding) s.log t.log) : WireMove env s l t :=
  .quiet h.id h.binding hlog

theorem WireMove.of_closeStream {removePoll : Bool} {origin : Origin} {loop : LoopState}
    (hb : s.binding m id ≠ none) :
    WireMove env s l { s.closeStream env m id removePoll origin with loop := loop } := by
  obtain ⟨fd, sock, hlog⟩ := @State.log_closeStream env s m id removePoll origin
  refine .closed hb ?_ (fun _ _ => State.binding_closeStream) hlog
  cases removePoll <;> rfl

theorem loopStep_wireMove {l : LoopLabel} (hs : s.loopStep env l = some t) (hw : WellBound s) :
    WireMove env s (.loop l) t := by
  have hmove := loopStep_cases hs
  obtain ⟨htab, hloop⟩ := hw
  cases hmove with
  | opened hi =>
    refine .opened rfl (State.binding_construct fun hm => ?_) rfl
    exact Nat.lt_irrefl _ (htab.fresh _ hm)
  | info hi hm hp hty => exact (SameTable.refl s).wireMove (.refl _ _)
  | other hi hm hp hc hd => exact (SameTable.endHandshake s _).wireMove (.refl _ _)
  | connect hi hm hp hty hcm hid =>
    exact ((SameTable.endHandshake s _).trans (.setLoop _ _)).wireMove (.refl _ _)
  | @refuse m view packet c hi hm hp hty hcm hid =>
    have hfiltered := filtered_of_receive hs hp hty rfl
    have hrefused : s.refused? env (.loop (.message m view)) = some (c.manager, c.streamId) := by
      rw [State.refused?, hp, hcm, hid]
      exact if_pos ⟨hty, hfiltered⟩
    exact .refused (hcm ▸ hm) hrefused rfl (SameTable.endHandshake s m).binding (.refl _ _) rfl
  | @data m view packet hi hm hp hty =>
    have hhand := SameTable.endHandshake s m
    have hplain := @State.plain_handleData env (s.endHandshake m) m packet
    rw [hhand.binding] at hplain
    exact (hhand.trans (.handleData _ _ _)).wireMove hplain
  | @drain m hi hm =>
    have hsame := SameTable.setBackpressure s m false
    have hplain := @State.plain_updateStreams env (s.setBackpressure m false) m
    rw [hsame.binding] at hplain
    exact (SameTable.drain s m).wireMove hplain
  | close hi hm => exact (SameTable.forceClose s _).wireMove (.refl _ _)
  | @deferred p rest hi hd =>
    rcases deferred_cases htab p rest rfl with ⟨heq, hfree⟩ | ⟨m, id, hb, heq⟩
    · rw [heq]
      exact .quiet rfl rfl (.refl _ _)
    · rw [heq]
      apply State.sameTable_runFound.wireMove
      rw [State.log_runFound]
      refine .snoc ⟨show packetData ≠ packetClose by decide, fun _ => ?_⟩
      rw [hb]
      exact Option.some_ne_none _
  | socketFail hl =>
    rw [hl] at hloop
    refine .refused hloop ?_ rfl rfl (.refl _ _) rfl
    rw [State.refused?, hl]
    rfl
  | socket hfd hl => exact .quiet rfl rfl (.refl _ _)
  | connected hl => exact .quiet rfl rfl (.refl _ _)
  | @connectFail c fd hl =>
    rw [hl] at hloop
    refine .refused hloop.alive ?_ rfl rfl
      (.snoc (show Event.Plain _ (.closed fd (s.kernel.sockAt fd)) from trivial)) rfl
    rw [State.refused?, hl]
    rfl
  | pushFd hl => exact (SameTable.pushFd s _ _ _).wireMove (.refl _ _)
  | insert hl hfree =>
    rw [hl] at hloop
    exact .stored rfl (fun _ _ => State.binding_insertStream hloop.alive) rfl
  | listIds hl hfree => exact .quiet rfl rfl (.refl _ _)
  | @closeNext m id ids hl hfree =>
    rw [hl] at hloop
    exact .of_closeStream ((hloop.2.2 id).mp (List.mem_cons_self ..))
  | @destruct m hl =>
    rw [hl] at hloop
    exact .quiet rfl (State.binding_destruct_of_closed hloop) (.refl _ _)
  | @closeFound p m id hl hfree =>
    rw [hl] at hloop
    refine .of_closeStream fun hnone => ?_
    exact Option.some_ne_none p.fd (hloop.symm.trans hnone)
  | decrement hl => exact .quiet rfl rfl (.refl _ _)
  | check hl => exact .quiet rfl rfl (.refl _ _)
  | sweepDone hl => exact .quiet rfl rfl (.refl _ _)
  | sweep hl =>
    exact ((SameTable.updateStreams s _).trans (.setLoop _ _)).wireMove State.plain_updateStreams

/-- **What a step means for the streams.** -/
theorem step_wireMove (hs : s.step env l = some t) (hw : WellBound s) : WireMove env s l t := by
  cases l with
  | loop l => exact loopStep_wireMove hs hw
  | watch l =>
    have hmove := watchStep_cases hs
    have hsame := hmove.sameTable
    cases hmove with
    | read hp hr => exact .read rfl rfl hsame.binding rfl
    | _ => exact hsame.wireMove (.refl _ _)
  | worker l =>
    have hmove := workerStep_cases hs
    apply hmove.sameTable.wireMove
    cases hmove with
    | begin => exact .snoc trivial
    | fault => exact .snoc trivial
    | write => exact .snoc trivial
    | _ => exact .refl _ _
  | rehash m' streams =>
    obtain ⟨hsame, hframe⟩ := State.rehash_frame hs
    apply hsame.wireMove
    rw [hframe]
    exact .refl _ _
  | rehashSockets ms =>
    obtain ⟨-, -, rfl⟩ := State.rehashSockets_frame hs
    exact .quiet rfl rfl (.refl _ _)

/-! ## What is shut is not served -/

theorem State.stream_ne_none (h : s.binding m id ≠ none) : s.stream m id ≠ none := by
  intro hnone
  rw [State.binding, hnone] at h
  exact h rfl

/-- **Only streams that are present are served.** -/
theorem WireMove.servesPresent (hs : WireMove env s l t) (hw : WellBound s) :
    ServesPresent s t := by
  have hclose : ∀ {m m' packet status status' origin origin' reason id},
      Event.sent m packet status origin = .sent m' (closeFrame reason id) status' origin' →
        ¬ packet.Serves := by
    intro m m' packet status status' origin origin' reason id he
    obtain ⟨-, rfl, -, -⟩ := Event.sent.inj he
    exact not_serves_close
  have hplain : ∀ {es : List Event}, t.binding = s.binding →
      (∀ e ∈ es, Event.Plain s.binding e) → ∀ m packet status origin,
      .sent m packet status origin ∈ es → packet.Serves →
      s.stream m packet.streamId ≠ none ∧ t.stream m packet.streamId ≠ none := by
    intro es hb hes m packet status origin he hserves
    have hbound := (hes _ he).2 hserves
    exact ⟨State.stream_ne_none hbound, State.stream_ne_none (hb ▸ hbound)⟩
  cases hs with
  | quiet hid hb hlog =>
    obtain ⟨es, hlog, hes⟩ := hlog
    exact ⟨es, hlog, fun m packet status origin he hserves =>
      Or.inl (hplain hb hes m packet status origin he hserves)⟩
  | opened hid hb hlog =>
    refine ⟨_, hlog, fun m packet status origin he _ => Or.inr ?_⟩
    obtain ⟨rfl, rfl, -, -⟩ := Event.sent.inj (List.mem_singleton.mp he)
    exact ⟨fun hm => Nat.lt_irrefl _ (hw.table.fresh _ hm), rfl⟩
  | read hl hid hb hlog =>
    refine ⟨_, hlog, fun m packet status origin he _ => ?_⟩
    exact Event.noConfusion (List.mem_singleton.mp he)
  | refused hm hrefused hid hb hlog ht =>
    obtain ⟨es, rfl, hes⟩ := hlog
    refine ⟨es ++ [_], by rw [ht, List.append_assoc], fun m packet status origin he hserves => ?_⟩
    rcases List.mem_append.mp he with he | he
    · exact Or.inl (hplain hb hes m packet status origin he hserves)
    · exact absurd hserves (hclose (List.mem_singleton.mp he))
  | stored hid hb hlog =>
    refine ⟨_, hlog, fun m packet status origin he _ => ?_⟩
    exact Event.noConfusion (List.mem_singleton.mp he)
  | closed hb hid hb' hlog =>
    refine ⟨_, hlog, fun m packet status origin he hserves => ?_⟩
    rcases List.mem_cons.mp he with he | he
    · exact absurd hserves (hclose he)
    · exact Event.noConfusion (List.mem_singleton.mp he)

/-- The invariant, for a log, the bindings, and the number of the next websocket. -/
structure Final (log : List Event) (bound : Nat → UInt32 → Option Fd) (next : Nat) : Prop where
  /-- a stream that is shut is not there -/
  absent : ∀ m id, Shut log m id → bound m id = none
  /-- its websocket is an old one -/
  old : ∀ m id, Shut log m id → m < next
  /-- and it was never served meanwhile -/
  final : ClosesFinal log

namespace Final

variable {log log' : List Event} {bound bound' : Nat → UInt32 → Option Fd} {next next' : Nat}
  {e : Event}

theorem nil : Final [] bound next where
  absent _ _ h := absurd h (not_since_nil _ _)
  old _ _ h := absurd h (not_since_nil _ _)
  final pre _ _ _ _ _ h :=
    absurd h.symm (List.append_ne_nil_of_right_ne_nil pre (List.cons_ne_nil _ _))

/-- **One event more**: it serves nothing that is shut, and what is shut after it is absent. -/
theorem snoc (h : Final log bound next)
    (hserves : ∀ m packet status origin, e = .sent m packet status origin → packet.Serves →
      ¬ Shut log m packet.streamId)
    (hshut : ∀ m id, Shut (log ++ [e]) m id → bound' m id = none ∧ m < next') :
    Final (log ++ [e]) bound' next' where
  absent m id hs := (hshut m id hs).1
  old m id hs := (hshut m id hs).2
  final pre m packet status origin post he := by
    rcases split_of_snoc he with ⟨rest, hold⟩ | ⟨rfl, heq⟩
    · exact h.final pre m packet status origin rest hold
    · exact hserves m packet status origin heq.symm

/-- An event that shuts nothing. -/
theorem snoc_other (h : Final log bound next)
    (hserves : ∀ m packet status origin, e = .sent m packet status origin → packet.Serves →
      ¬ Shut log m packet.streamId)
    (hnot : ∀ m id, ¬ e.Shuts m id) (hle : next ≤ next') : Final (log ++ [e]) bound next' := by
  apply h.snoc hserves
  intro m id hs
  rcases since_snoc.mp hs with hnew | ⟨hold, -⟩
  · exact absurd hnew (hnot m id)
  · exact ⟨h.absent m id hold, Nat.lt_of_lt_of_le (h.old m id hold) hle⟩

/-- A CLOSE, after which the stream is absent. -/
theorem snoc_close {reason : UInt8} {status : SendStatus} {origin : Origin}
    (h : Final log bound next) (hnone : bound' m id = none) (hlt : m < next)
    (hsame : ∀ m' id', ¬ (m' = m ∧ id' = id) → bound' m' id' = bound m' id') :
    Final (log ++ [.sent m (closeFrame reason id) status origin]) bound' next := by
  apply h.snoc
  · intro m' packet status' origin' he hserves
    obtain ⟨-, rfl, -, -⟩ := Event.sent.inj he
    exact absurd hserves not_serves_close
  · intro m' id' hs
    by_cases heq : m' = m ∧ id' = id
    · obtain ⟨rfl, rfl⟩ := heq
      exact ⟨hnone, hlt⟩
    · rcases since_snoc.mp hs with ⟨rfl, -, rfl⟩ | ⟨hold, -⟩
      · exact absurd ⟨rfl, rfl⟩ heq
      · exact ⟨(hsame m' id' heq).trans (h.absent m' id' hold), h.old m' id' hold⟩

/-- Events that serve what is bound. -/
theorem extends_plain (h : Final log bound next) (hlog : Extends (Event.Plain bound) log log') :
    Final log' bound next := by
  obtain ⟨es, rfl, hes⟩ := hlog
  induction es generalizing log with
  | nil =>
    rw [List.append_nil]
    exact h
  | cons e es ih =>
    have he := hes e (List.mem_cons_self ..)
    have hone : Final (log ++ [e]) bound next := by
      refine h.snoc_other ?_ (fun m id hs => ?_) (Nat.le_refl _)
      · rintro m packet status origin rfl hserves hs
        exact he.2 hserves (h.absent m packet.streamId hs)
      · cases e with
        | sent m' packet status origin => exact he.1 hs.2.1
        | _ => exact hs
    rw [show log ++ e :: es = (log ++ [e]) ++ es by rw [List.append_assoc]; rfl]
    exact ih hone fun a ha => hes a (List.mem_cons_of_mem _ ha)

end Final

/-- The invariant of a state. -/
abbrev State.Final (s : State) : Prop := Woeful.Final s.log s.binding s.id

/-- **A step whose failing CONNECTs are for ids that are not present keeps CLOSEs final.** -/
theorem State.Final.step (hs : s.step env l = some t) (hw : WellBound s)
    (hg : s.refusesAbsent env l = true) (h : s.Final) : t.Final := by
  rw [State.Final]
  cases step_wireMove hs hw with
  | quiet hid hb hlog =>
    rw [hid, hb]
    exact h.extends_plain hlog
  | opened hid hb hlog =>
    rw [hid, hb, hlog]
    refine h.snoc_other ?_ (fun m id hs => ?_) (Nat.le_succ _)
    · intro m packet status origin he _ hs
      -- nothing was sent to a websocket that is new
      obtain ⟨rfl, -, -, -⟩ := Event.sent.inj he
      exact Nat.lt_irrefl _ (h.old _ _ hs)
    · exact absurd hs.2.1 (show packetContinue ≠ packetClose by decide)
  | read hl hid hb hlog =>
    rw [hid, hb, hlog]
    exact h.snoc_other (fun _ _ _ _ he => Event.noConfusion he) (fun _ _ hs => hs) (Nat.le_refl _)
  | @refused m id log status hm hrefused hid hb hlog ht =>
    rw [hid, hb, ht]
    have habsent : s.binding m id = none := by
      rw [State.refusesAbsent, hrefused] at hg
      rw [State.binding, Option.isNone_iff_eq_none.mp hg]
      rfl
    exact (h.extends_plain hlog).snoc_close habsent (hw.table.fresh _ hm) fun _ _ _ => rfl
  | @stored m id fd sock hid hb hlog =>
    rw [hid, hlog]
    apply h.snoc
    · exact fun _ _ _ _ he => Event.noConfusion he
    · intro m' id' hs
      rcases since_snoc.mp hs with hnew | ⟨hold, hother⟩
      · exact hnew.elim
      · rw [hb, if_neg (fun he => hother ⟨he.1.symm, he.2.symm⟩)]
        exact ⟨h.absent m' id' hold, h.old m' id' hold⟩
  | @closed m id status origin fd sock hbound hid hb hlog =>
    rw [hid, hlog]
    obtain ⟨fd', hfd⟩ := Option.ne_none_iff_exists'.mp hbound
    have hlt := hw.table.fresh _ (State.mem_managers_of_binding hfd)
    have hsent : Woeful.Final (s.log ++ [.sent m (closeFrame 0x02 id) status origin])
        t.binding s.id := by
      apply h.snoc_close _ hlt
      · intro m' id' hne
        rw [hb, if_neg hne]
      · rw [hb, if_pos ⟨rfl, rfl⟩]
    rw [show s.log ++ [.sent m (closeFrame 0x02 id) status origin, .closed fd sock] =
      (s.log ++ [.sent m (closeFrame 0x02 id) status origin]) ++ [.closed fd sock] by
        rw [List.append_assoc]; rfl]
    exact hsent.extends_plain (.snoc trivial)

/-- **A CLOSE is final**, in every run in which CONNECTs that fail are for ids that are
not present; and in any case only streams that are present are served. -/
theorem closes_final (h : (server env).Reaches (fun s l => s.refusesAbsent env l = true) s) :
    ClosesFinal s.log ∧ ∀ l t, s.step env l = some t → ServesPresent s t := by
  have hw : WellBound s := .of_reaches h
  have hfinal : s.Final :=
    h.invariant_of (fun _ => WellBound.of_reaches) .nil
      fun _ _ _ hg hst hw hf => State.Final.step hst hw hg hf
  exact ⟨hfinal.final, fun _ _ hst => (step_wireMove hst hw).servesPresent hw⟩

/-- A stream is served, closed by its target, connected again and served; another CONNECT
fails. -/
def closeAndReconnect : List Label :=
  [.loop .opened] ++ connectLabels 0 1 7 ++ passLabels 7 [.bytes [104, 105], .eof] ++
    .loop .deferred :: List.replicate 5 (.loop .resume) ++
    (connectLabels 0 2 8).take 1 ++ [.loop (.socket none)] ++
    connectLabels 0 1 7 ++ passLabels 7 [.bytes [33], .again] ++ [.loop .deferred]

theorem closes_final_closeAndReconnect :
    ClosesFinal ((server {}).final (fun s l => s.refusesAbsent {} l = true) closeAndReconnect).log ∧
      ∀ l t,
        ((server {}).final (fun s l => s.refusesAbsent {} l = true) closeAndReconnect).step {} l =
        some t → ServesPresent
          ((server {}).final (fun s l => s.refusesAbsent {} l = true) closeAndReconnect) t :=
  closes_final (System.reaches_final _ _ _ (by decide +kernel))

/-- A CONNECT fails for the id of a stream that is open, and its target goes on sending. -/
def refusedWhileOpen : List Label :=
  [.loop .opened] ++ connectLabels 0 1 7 ++ (connectLabels 0 1 8).take 1 ++
    [.loop (.socket none)] ++ passLabels 7 [.bytes [104, 105], .again] ++ [.loop .deferred]

/-- **The stream that is served on** after its CLOSE. -/
theorem servedOn_counterexample :
    ¬ ∀ (env : Env) (s : State), (server env).Reachable s → ClosesFinal s.log := by
  intro h
  have hfinal := h {} _ ((server {}).reaches_final (fun _ _ => True) refusedWhileOpen
    (by decide +kernel))
  let log := ((server {}).final (fun _ _ => True) refusedWhileOpen).log
  let p : Pass := ⟨7, [104, 105], false, 0,
    [⟨some 0, .bytes [104, 105]⟩, ⟨some 0, .again⟩], rfl, rfl⟩
  have hlog : log = log.take 5 ++
      .sent 0 ⟨packetData, 1, [104, 105]⟩ .success (.closure p (some 0)) :: [] := by
    decide +kernel
  refine hfinal _ 0 _ _ _ _ hlog (Or.inl rfl) ?_
  exact ⟨log.take 2, .sent 0 (closeFrame 0x41 1) .success .server, (log.drop 3).take 2,
    by decide +kernel, ⟨rfl, rfl, rfl⟩, by
      have hpost : (log.drop 3).take 2 = [.read 7 ⟨some 0, .bytes [104, 105]⟩,
          .read 7 ⟨some 0, .again⟩] := by decide +kernel
      rw [hpost]
      simp [Event.Opens]⟩

end Woeful
