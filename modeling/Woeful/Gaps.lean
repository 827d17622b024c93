import Woeful.Carriage
import Woeful.Delivery

/-!
# Gaps after a dropped frame

`ws->send` may drop a frame, and the closure that is told so goes on as if it were sent.
On the stream of a socket nothing is missing as long as no DATA is dropped (`Flowing`). The
one DATA that may be dropped is the last one, of a closure that closes the stream next
(`Cut`); after any other, the next DATA leaves a gap (`gap_counterexample`).
-/

namespace Woeful

open Memory Transition Log

variable {env : Env} {s t : State} {l : Label} {k : Nat} {log log' : List Event} {e : Event}

/-! ## DATA on the stream of a socket -/

/-- A DATA on the stream of socket `k`. -/
def Event.SendsOn (k : Nat) : Event → Prop
  | .sent _ packet _ (.closure _ sock) => packet.packetType = packetData ∧ sock = some k
  | _ => False

/-- A DATA on the stream of socket `k` that is dropped. -/
def Event.DropsOn (k : Nat) : Event → Prop
  | .sent _ packet status (.closure _ sock) =>
    packet.packetType = packetData ∧ sock = some k ∧ status = .dropped
  | _ => False

/-- On the stream of socket `k` nothing is missing before anything that was sent. -/
structure Gapless (k : Nat) (log : List Event) : Prop where
  /-- what the websocket accepted is a prefix of what was read -/
  accepted : delivered k log <+: arrived k log
  /-- nothing is sent after a DATA that was dropped -/
  last : ∀ pre e post, log = pre ++ e :: post → e.SendsOn k → ∀ e' ∈ pre, ¬ e'.DropsOn k

/-- The condition on a step: a socket is not made where bytes are pending under its
number, and its DATA is not dropped, unless the closure closes the stream next. -/
def State.feeds (env : Env) (k : Nat) (s : State) : Label → Bool
  | .loop (.socket (some fd)) => s.kernel.socks.length ≠ k ||
      s.pendingPasses.all fun p => p.fd ≠ fd || p.combinedBuffer.isEmpty
  | .loop .deferred =>
    match s.deferred with
    | [] => true
    | p :: _ => p.toClose || s.sendStatus env ≠ .dropped ||
        (s.holders p.fd).all fun h => s.boundSock h.1 h.2 ≠ some k
  | _ => true

theorem Event.SendsOn.of_drops (h : e.DropsOn k) : e.SendsOn k := by
  cases e with
  | sent m packet status origin =>
    cases origin with
    | server => exact h
    | closure p sock => exact ⟨h.1, h.2.1⟩
  | _ => exact h

theorem Event.Foreign.not_sends (h : e.Foreign k) : ¬ e.SendsOn k := by
  cases e with
  | sent m packet status origin =>
    cases origin with
    | server => exact fun hs => hs
    | closure p sock => exact fun hs => h hs.2
  | _ => exact fun hs => hs

theorem Event.delivered_of_not_sends (h : ¬ e.SendsOn k) : e.delivered k = [] := by
  cases e with
  | sent m packet status origin =>
    cases origin with
    | server => rfl
    | closure p sock => exact if_neg fun hs => h ⟨hs.1, hs.2.1⟩
  | _ => rfl

theorem Event.Foreign.arrived (h : e.Foreign k) : e.arrived k = [] := by
  cases e with
  | read fd r => exact if_neg h
  | _ => rfl

theorem delivered_append : delivered k (log ++ log') = delivered k log ++ delivered k log' :=
  List.flatMap_append

/-- Nothing is sent by the events that were added. -/
theorem delivered_of_extends (h : Extends (fun e => ¬ e.SendsOn k) log log') :
    delivered k log' = delivered k log := by
  obtain ⟨es, rfl, hes⟩ := h
  have hnone : delivered k es = [] :=
    List.flatMap_eq_nil_iff.mpr fun e he => e.delivered_of_not_sends (hes e he)
  rw [delivered_append, hnone, List.append_nil]

theorem arrived_of_foreign (h : Extends (Event.Foreign k) log log') :
    arrived k log' = arrived k log := by
  obtain ⟨es, rfl, hes⟩ := h
  have hnone : arrived k es = [] := List.flatMap_eq_nil_iff.mpr fun e he => (hes e he).arrived
  rw [arrived_append, hnone, List.append_nil]

/-- **What is only read leaves no gap.** -/
theorem Gapless.extends (h : Gapless k log) (hlog : Extends (fun e => ¬ e.SendsOn k) log log') :
    Gapless k log' := by
  refine ⟨?_, ?_⟩
  · rw [delivered_of_extends hlog]
    obtain ⟨es, rfl, -⟩ := hlog
    rw [arrived_append]
    exact h.accepted.trans (List.prefix_append _ _)
  · obtain ⟨es, rfl, hes⟩ := hlog
    intro pre e post he hsends
    rcases split_of_append he with ⟨rest, hold⟩ | hnew
    · exact h.last pre e rest hold hsends
    · exact absurd hsends (hes e hnew)

/-! ## The invariant -/

/-- The reads that return bytes. -/
def Read.hasData (r : Read) : Bool := !r.result.data.isEmpty

/-- Everything read from the socket was sent, or is carried by a pass, and nothing was dropped. -/
structure Flowing (k : Nat) (s : State) : Prop where
  /-- what was sent, and then what is carried, is what was read -/
  all : delivered k s.log ++ (s.passesOf k).flatMap (·.combinedBuffer) = arrived k s.log
  /-- nothing was dropped -/
  kept : ∀ e ∈ s.log, ¬ e.DropsOn k

theorem Flowing.gapless (h : Flowing k s) : Gapless k s.log where
  accepted := ⟨_, h.all⟩
  last _ _ _ he _ e' he' := h.kept e' (he ▸ List.mem_append_left _ he')

/-- Nothing is missing, and the stream is closed next. -/
def Cut (k : Nat) (s : State) : Prop :=
  Gapless k s.log ∧ ∃ p m id, s.loop = .closeFound p m id ∧ s.kernel.sockAt p.fd = some k

/-- What holds of a socket while it is in use. -/
structure Fed (k : Nat) (s : State) : Prop where
  /-- a pass over the socket carries no bytes of another one -/
  clean : InUse s k → Clean Read.hasData s k
  /-- nothing is missing on its stream -/
  gapless : InUse s k → Flowing k s ∨ Cut k s
  /-- it has no part in the log before it is made -/
  unmade : Unmade s k

/-- A pass over the socket that has not read from it is empty. -/
theorem Clean.combined_eq_nil {p : Pass} (h : Clean Read.hasData s k) (hp : p ∈ s.openPasses)
    (hsock : s.kernel.sockAt p.fd = some k) (hread : p.readFrom k = false) :
    p.combinedBuffer = [] := by
  rw [p.combined_eq]
  refine List.flatMap_eq_nil_iff.mpr fun r hr => ?_
  by_contra hdata
  have hrk := h p hp hsock r hr (by simpa [Read.hasData] using hdata)
  rw [Pass.readFrom_eq_true.mpr ⟨r, hr, hrk⟩] at hread
  cases hread

/-- What such a pass carries, whether it has read from the socket or not. -/
theorem Clean.carried {p : Pass} (h : Clean Read.hasData s k) (hp : p ∈ s.openPasses)
    (hsock : s.kernel.sockAt p.fd = some k) :
    (if p.readFrom k then [p] else []).flatMap (·.combinedBuffer) = p.combinedBuffer := by
  cases hread : p.readFrom k with
  | true => exact List.append_nil _
  | false => exact (h.combined_eq_nil hp hsock hread).symm

/-- A stream that is to be closed stays gapless until it is. -/
theorem Cut.step (hs : s.step env l = some t) (hok : PassesOk s) (huse : InUse t k)
    (h : Cut k s) : Cut k t := by
  obtain ⟨hgap, p, m, id, hl, hsock⟩ := h
  have hlog : Extends (fun e => ¬ e.SendsOn k) s.log t.log := by
    cases @step_carryMove env s t l k hs hok.bound hok.seated with
    | quiet hpasses hlog => exact hlog.mono fun _ he => he.not_sends
    | read hlabel hphase hfd hr hps hps' hlog => exact hlog ▸ .snoc fun hs => hs
    | sent hlabel hi =>
      rw [hl] at hi
      cases hi
    | closed _ _ _ hnot => exact absurd huse hnot
  have hkeep : t.loop = s.loop → t.kernel.sockAt = s.kernel.sockAt → Cut k t :=
    fun hloop hsocks => ⟨hgap.extends hlog, p, m, id, hloop.trans hl, by rw [hsocks, hsock]⟩
  cases l with
  | watch w =>
    have hmove := watchStep_cases hs
    exact hkeep hmove.loop hmove.sameTable.sockAt
  | worker w =>
    have hmove := workerStep_cases hs
    exact hkeep hmove.loop hmove.sameTable.sockAt
  | rehash m' streams =>
    obtain ⟨hsame, hframe⟩ := State.rehash_frame hs
    exact hkeep (by rw [hframe]) hsame.sockAt
  | rehashSockets ms =>
    obtain ⟨hi, -, -⟩ := State.rehashSockets_frame hs
    rw [hl] at hi
    cases hi
  | loop w =>
    cases (loopStep_cases hs).closureMove hok.bound with
    | quiet hq =>
      have hnone := hq.before
      rw [hl] at hnone
      cases hnone
    | skip hi =>
      rw [hl] at hi
      cases hi
    | found hi =>
      rw [hl] at hi
      cases hi
    | @close p' m' id' hl' hb heq =>
      -- the socket is closed, so it is not in use
      rw [hl] at hl'
      obtain ⟨rfl, rfl, rfl⟩ := LoopState.closeFound.inj hl'
      obtain ⟨fd, hfd⟩ := huse.opened
      rw [heq, State.sockAt_closeFound hb, Function.update_apply] at hfd
      split at hfd
      · cases hfd
      · rename_i hne
        exact absurd (Kernel.sockAt_inj hfd hsock) hne

/-- **A step that does not drop what it should not leaves no gap.** -/
theorem Flowing.step (hs : s.step env l = some t) (hok : PassesOk s)
    (hg : s.feeds env k l = true) (huse : InUse t k) (hclean : Clean Read.hasData s k)
    (h : Flowing k s) : Flowing k t ∨ Cut k t := by
  cases @step_carryMove env s t l k hs hok.bound hok.seated with
  | quiet hpasses hlog =>
    refine Or.inl ⟨?_, fun e he hdrops => ?_⟩
    · rw [hpasses huse, delivered_of_extends (hlog.mono fun _ he => he.not_sends),
        arrived_of_foreign hlog]
      exact h.all
    · rcases hlog.mem he with hold | hnew
      · exact h.kept e hold hdrops
      · exact hnew.not_sends (.of_drops hdrops)
  | @read p r ps hlabel hphase hsock hr hps hps' hlog =>
    have hp : p ∈ s.openPasses := by
      rw [State.openPasses, State.pendingPasses, hphase]
      simp [WatcherPhase.pass?]
    refine Or.inl ⟨?_, fun e he hdrops => ?_⟩
    · have hsent : delivered k t.log = delivered k s.log := by
        rw [hlog]
        exact delivered_of_extends (.snoc fun hs => hs)
      have hread : arrived k t.log = arrived k s.log ++ r.result.data := by
        rw [hlog, arrived_append]
        simp [arrived, Event.arrived, hr]
      have hall := h.all
      rw [hps, List.flatMap_append, hclean.carried hp hsock] at hall
      rw [hsent, hread, hps', ← hall, List.flatMap_append]
      simp [Pass.read]
    · rw [hlog] at he
      rcases List.mem_append.mp he with hold | hnew
      · exact h.kept e hold hdrops
      · rw [List.mem_singleton.mp hnew] at hdrops
        exact hdrops
  | closed _ _ _ hnot => exact absurd huse hnot
  | @sent p rest m id hlabel hi hd hb hsock hps heq =>
    subst hlabel
    have hp := State.mem_openPasses_of_deferred hd
    have hbound : s.boundSock m id = some k := State.boundSock_eq_some.mpr ⟨_, hb, hsock⟩
    have hlog := @State.log_runFound env s p rest m id
    rw [hbound, ← heq] at hlog
    have hall := h.all
    rw [hps, List.flatMap_append, hclean.carried hp hsock] at hall
    have harrived : arrived k t.log = arrived k s.log := by
      rw [hlog, arrived_append]
      exact List.append_nil _
    by_cases hstatus : s.sendStatus env = .dropped
    · -- the closure closes the stream next
      right
      have hclose : p.toClose = true := by
        have hfound : (m, id) ∈ s.holders p.fd :=
          mem_holders.mpr ⟨(hok.bound.table.watched m).mpr (State.mem_managers_of_binding hb), hb⟩
        by_contra hnot
        simp only [State.feeds, hd, Bool.eq_false_iff.mpr hnot, hstatus, ne_eq, not_true_eq_false,
          decide_false, Bool.or_self, Bool.false_or, List.all_eq_true, decide_eq_true_eq] at hg
        exact hg (m, id) hfound hbound
      refine ⟨⟨?_, ?_⟩, p, m, id, ?_, ?_⟩
      · have hsent : delivered k t.log = delivered k s.log := by
          rw [hlog, delivered_append]
          simp [delivered, Event.delivered, hstatus]
        rw [hsent, harrived]
        exact ⟨_, hall⟩
      · intro pre e post he _ e' he'
        rw [hlog] at he
        rcases split_of_snoc he with ⟨post', hold⟩ | ⟨rfl, -⟩
        · exact h.kept e' (hold ▸ List.mem_append_left _ he')
        · exact h.kept e' he'
      · rw [heq, State.runFound_frame]
        exact if_pos hclose
      · rw [heq, State.runFound_frame]
        exact hsock
    · refine Or.inl ⟨?_, fun e he hdrops => ?_⟩
      · have hsent : delivered k t.log = delivered k s.log ++ p.combinedBuffer := by
          rw [hlog, delivered_append]
          simp [delivered, Event.delivered, hstatus]
        rw [hsent, harrived, List.append_assoc]
        exact hall
      · rw [hlog] at he
        rcases List.mem_append.mp he with hold | hnew
        · exact h.kept e hold hdrops
        · rw [List.mem_singleton.mp hnew] at hdrops
          exact hstatus hdrops.2.2

/-- A socket that is made, with no bytes pending under its number. -/
theorem Flowing.socket (hg : s.feeds env k l = true) (h : SocketMade k s l t) :
    Clean Read.hasData t k ∧ Flowing k t := by
  refine ⟨h.clean fun fd hl p hp hfd r hr => ?_, ?_, fun e he hdrops => ?_⟩
  · subst hl
    simp only [State.feeds, ← h.number, ne_eq, not_true_eq_false, decide_false, Bool.false_or,
      List.all_eq_true, Bool.or_eq_true, decide_eq_true_eq, List.isEmpty_iff] at hg
    have hnil := (hg p hp).resolve_left fun hne => hne hfd
    rw [p.combined_eq, List.flatMap_eq_nil_iff] at hnil
    simp [Read.hasData, hnil r hr]
  · have hsent : delivered k t.log = [] := List.flatMap_eq_nil_iff.mpr fun e he =>
      e.delivered_of_not_sends (h.foreign e he).not_sends
    have hread : arrived k t.log = [] :=
      List.flatMap_eq_nil_iff.mpr fun e he => (h.foreign e he).arrived
    rw [hsent, hread, h.passesOf]
    rfl
  · exact (h.foreign e he).not_sends (.of_drops hdrops)

theorem Fed.step (hs : s.step env l = some t) (hok : PassesOk s)
    (hg : s.feeds env k l = true) (h : Fed k s) : Fed k t := by
  have hboth : InUse t k → Clean Read.hasData t k ∧ (Flowing k t ∨ Cut k t) := by
    intro huse
    by_cases hk : k < s.kernel.socks.length
    · have hbefore := huse.of_step (step_tableMove hs hok.bound) hk
      refine ⟨(h.clean hbefore).step hs hok.bound hk, ?_⟩
      rcases h.gapless hbefore with hflow | hcut
      · exact hflow.step hs hok hg huse (h.clean hbefore)
      · exact Or.inr (hcut.step hs hok huse)
    · have hmade := step_socketMade hs hok h.unmade (Nat.not_lt.mp hk) huse.lt
      exact (Flowing.socket hg hmade).imp_right Or.inl
  exact ⟨fun huse => (hboth huse).1, fun huse => (hboth huse).2,
    h.unmade.step hs hok.bound hok.seated⟩

/-- **No gap on the stream of a socket**, in every run in which its DATA is not dropped,
unless the stream is closed next, and no bytes were pending under its number when it was
made. -/
theorem streams_gapless (h : (server env).Reaches (fun s l => s.feeds env k l = true) s)
    {m : Nat} {id : UInt32} (hb : s.boundSock m id = some k) : Gapless k s.log := by
  have hall : PassesOk s ∧ Fed k s := by
    refine h.invariant (I := fun s => PassesOk s ∧ Fed k s) ⟨.initial env, ?_⟩ ?_
    · exact ⟨fun huse => absurd huse not_inUse_initial,
        fun huse => absurd huse not_inUse_initial, fun _ _ he => nomatch he⟩
    · rintro s l t hg hst ⟨hok, hfed⟩
      exact ⟨hok.step hst, hfed.step hst hok hg⟩
  rcases hall.2.gapless (Or.inl ⟨m, id, hb⟩) with hflow | hcut
  · exact hflow.gapless
  · exact hcut.1

/-- The first DATA of a stream is accepted, the last one is dropped. -/
def dropsLast : Env := { status := fun n => if n = 7 then .dropped else .success }

/-- Bytes are read and sent, then bytes and EOF, and their closure is about to close. -/
def bytesThenEof : List Label :=
  [.loop .opened] ++ connectLabels 0 1 7 ++ passLabels 7 [.bytes [104, 105], .again] ++
    .loop .deferred :: List.replicate 4 (.loop .resume) ++
    passLabels 7 [.bytes [33], .eof] ++ [.loop .deferred]

theorem streams_gapless_bytesThenEof :
    Gapless 0
      ((server dropsLast).final (fun s l => s.feeds dropsLast 0 l = true) bytesThenEof).log :=
  @streams_gapless dropsLast _ 0 (System.reaches_final _ _ _ (by decide +kernel)) 0 1
    (by decide +kernel)

/-- The first DATA of a stream is dropped. -/
def dropsFirst : Env := { status := fun n => if n = 4 then .dropped else .success }

/-- Bytes are read and sent, twice. -/
def bytesTwice : List Label :=
  [.loop .opened] ++ connectLabels 0 1 7 ++ passLabels 7 [.bytes [104, 105], .again] ++
    .loop .deferred :: List.replicate 4 (.loop .resume) ++
    passLabels 7 [.bytes [33], .again] ++ [.loop .deferred]

/-- **The gap**: the websocket accepts `[33]`, after `[104, 105]` was dropped. -/
theorem gap_counterexample :
    ¬ ∀ (env : Env) (s : State) (m : Nat) (id : UInt32) (d : SocketStreamData) (k : Nat),
      (server env).Reachable s → s.stream m id = some d → d.streamType = 0x01 →
      s.boundSock m id = some k → Gapless k s.log := by
  intro h
  have hgapless := h dropsFirst _ 0 1 ⟨1, 1, 7, bufferCount⟩ 0
    ((server dropsFirst).reaches_final (fun _ _ => True) bytesTwice (by decide +kernel))
    (by decide +kernel) rfl (by decide +kernel)
  exact absurd hgapless.accepted (by decide +kernel)

end Woeful
