import Woeful.Finality
import Woeful.Isolation

/-!
# What the passes carry from a socket

The passes that have read from one socket, and what a step does to them, in any run:
websockets close, and a CONNECT may be for an id that is present.

A socket stays where it was read as long as it is open (`Seated`), and a socket that no
stream holds and no CONNECT is about to store will never be in use again (`InUse.of_step`).
So the closure of a pass that has read from a socket in use finds the stream of this socket,
and `CarryMove` lists what a step can do: nothing, a read, or the DATA of the oldest pass.

What else such a pass carries depends on what was pending under the number of the
descriptor when the socket was made; `Clean` says that it was nothing that matters, and
holds from then on (`Clean.step`).
-/

namespace Woeful

open Memory Transition Log

variable {env : Env} {s t : State} {l : Label} {k : Nat} {matters : Read → Bool}

/-! ## Sockets -/

/-- A socket that is there is not made by the step. -/
theorem TableMove.sockAt_old (hs : TableMove s t l) (hk : k < s.kernel.socks.length) {fd : Fd}
    (h : t.kernel.sockAt fd = some k) : s.kernel.sockAt fd = some k := by
  cases hs with
  | same hsock => exact hsock ▸ h
  | socket _ _ hsock =>
    rw [hsock, Function.update_apply] at h
    split at h
    · exact absurd hk (by rw [Option.some.inj h]; exact Nat.lt_irrefl _)
    · exact h
  | abandon _ hsock | close _ _ _ _ hsock =>
    rw [hsock, Function.update_apply] at h
    split at h
    · cases h
    · exact h
  | insert _ hsock => exact hsock ▸ h

theorem TableMove.socks_le (hs : TableMove s t l) :
    s.kernel.socks.length ≤ t.kernel.socks.length :=
  hs.socks_prefix.length_le

/-- Socket `k` is bound to a stream, or a CONNECT is about to store it. -/
def InUse (s : State) (k : Nat) : Prop :=
  (∃ m id, s.boundSock m id = some k) ∨
    ∃ fd, s.loop.fd? = some fd ∧ s.kernel.sockAt fd = some k

/-- A socket that is in use is open. -/
theorem InUse.opened (h : InUse s k) : ∃ fd, s.kernel.sockAt fd = some k := by
  rcases h with ⟨m, id, hb⟩ | ⟨fd, -, hsock⟩
  · obtain ⟨fd, -, hsock⟩ := State.boundSock_eq_some.mp hb
    exact ⟨fd, hsock⟩
  · exact ⟨fd, hsock⟩

theorem InUse.lt (h : InUse s k) : k < s.kernel.socks.length := by
  obtain ⟨fd, hsock⟩ := h.opened
  exact Kernel.sockAt_lt hsock

/-- Between two events a socket that is in use is bound. -/
theorem InUse.bound (h : InUse s k) (hi : s.loop = .idle) : ∃ m id, s.boundSock m id = some k := by
  rcases h with hb | ⟨fd, hfd, -⟩
  · exact hb
  · rw [hi] at hfd
    cases hfd

/-- **A socket that is in use was in use before**, unless the step made it. -/
theorem InUse.of_step (hs : TableMove s t l) (hk : k < s.kernel.socks.length) (h : InUse t k) :
    InUse s k := by
  have hold : ∀ {fd}, t.kernel.sockAt fd = some k → s.kernel.sockAt fd = some k :=
    hs.sockAt_old hk
  rcases h with ⟨m, id, hb⟩ | ⟨fd, hfd, hsock⟩
  · obtain ⟨fd, hb, hsock⟩ := State.boundSock_eq_some.mp hb
    have hstays : s.binding m id = some fd → InUse s k :=
      fun hb => Or.inl ⟨m, id, State.boundSock_eq_some.mpr ⟨fd, hb, hold hsock⟩⟩
    cases hs with
    | same _ _ hbind => exact hstays (hbind ▸ hb)
    | socket _ _ _ _ hbind => exact hstays (hbind ▸ hb)
    | abandon _ _ _ hbind => exact hstays (hbind ▸ hb)
    | insert hl _ _ hbind =>
      rw [hbind] at hb
      split at hb
      · -- the stream that is stored: its CONNECT was in progress
        obtain rfl := Option.some.inj hb
        exact Or.inr ⟨_, by rw [hl]; rfl, hold hsock⟩
      · exact hstays hb
    | close _ _ _ _ _ _ hbind =>
      rw [hbind] at hb
      split at hb
      · cases hb
      · exact hstays hb
  · cases hs with
    | same _ _ _ hl => exact Or.inr ⟨fd, hl ▸ hfd, hold hsock⟩
    | socket _ hnone hupdate _ _ hl =>
      obtain rfl := Option.some.inj (hl.symm.trans hfd)
      have hfree := Kernel.sockAt_of_none hnone
      rw [hold hsock] at hfree
      cases hfree
    | abandon _ _ _ _ hl | insert _ _ _ _ hl | close _ _ _ _ _ _ _ hl =>
      rw [hl] at hfd
      cases hfd

theorem not_inUse_initial : ¬ InUse (State.initial env) k := by
  intro h
  exact Nat.not_lt_zero k h.lt

/-! ## Passes -/

/-- A socket that a pass has read from is under the descriptor of the pass, as long as it
is open. -/
def Seated (s : State) : Prop :=
  ∀ p ∈ s.openPasses, ∀ r ∈ p.reads, ∀ k, r.sock = some k →
    k < s.kernel.socks.length ∧ ∀ fd, s.kernel.sockAt fd = some k → fd = p.fd

theorem Seated.step (hs : s.step env l = some t) (hw : WellBound s) (h : Seated s) :
    Seated t := by
  have htable := step_tableMove hs hw
  have hkeep : ∀ {k : Nat} {fd : Fd}, k < s.kernel.socks.length →
      (∀ fd', s.kernel.sockAt fd' = some k → fd' = fd) →
      k < t.kernel.socks.length ∧ ∀ fd', t.kernel.sockAt fd' = some k → fd' = fd :=
    fun hlt hfd => ⟨Nat.lt_of_lt_of_le hlt htable.socks_le,
      fun fd' hsock => hfd fd' (htable.sockAt_old hlt hsock)⟩
  intro p hp r hr k hk
  rcases step_mem_openPasses hs hw hp with hold | hnil | ⟨-, p', hp', result, rfl, -⟩
  · obtain ⟨hlt, hfd⟩ := h p hold r hr k hk
    exact hkeep hlt hfd
  · rw [hnil] at hr
    cases hr
  · rcases List.mem_append.mp hr with hr | hr
    · obtain ⟨hlt, hfd⟩ := h p' hp' r hr k hk
      exact hkeep hlt hfd
    · obtain rfl := List.mem_singleton.mp hr
      exact hkeep (Kernel.sockAt_lt hk) fun _ hsock => Kernel.sockAt_inj hsock hk

/-- A closure that is about to close was told to, and a pass that waits for its closure has
read something. -/
structure Told (s : State) : Prop where
  /-- the closure was told to close -/
  closing : ∀ p, s.loop.pass? = some p → p.toClose = true
  /-- a pass that is queued has read -/
  queued : ∀ p ∈ s.deferred, p.reads ≠ []
  /-- and so has one that the watcher has finished reading for -/
  finished : ∀ p, s.watcher.phase.pass? = some p → s.watcher.phase ≠ .reading p → p.reads ≠ []

theorem Told.watchMove (hs : WatchMove env s t) (h : Told s) : Told t := by
  have hclosing : ∀ p, t.loop.pass? = some p → p.toClose = true := hs.loop ▸ h.closing
  have hfinished : ∀ {phase : WatcherPhase} {p : Pass}, s.watcher.phase = phase →
      phase.pass? = some p → phase ≠ .reading p → p.reads ≠ [] :=
    fun hp hpass hne => h.finished _ (hp ▸ hpass) (hp ▸ hne)
  cases hs with
  | wait hp | done hp => exact ⟨hclosing, h.queued, fun _ hpass => nomatch hpass⟩
  | skip hp => exact ⟨hclosing, h.queued, h.finished⟩
  | start hp =>
    exact ⟨hclosing, h.queued, fun _ hpass hne =>
      absurd (congrArg WatcherPhase.reading (Option.some.inj hpass)) hne⟩
  | read hp hr =>
    refine ⟨hclosing, h.queued, fun q hpass _ => ?_⟩
    obtain rfl := Option.some.inj ((State.pass?_afterRead _ _).symm.trans hpass)
    exact List.append_ne_nil_of_right_ne_nil _ (List.cons_ne_nil _ _)
  | erase hp | count hp =>
    refine ⟨hclosing, h.queued, fun q hpass _ => ?_⟩
    obtain rfl := Option.some.inj hpass
    exact hfinished hp rfl WatcherPhase.noConfusion
  | defer hp =>
    refine ⟨hclosing, fun q hq => ?_, fun _ hpass => nomatch hpass⟩
    rcases List.mem_append.mp hq with hq | hq
    · exact h.queued q hq
    · obtain rfl := List.mem_singleton.mp hq
      exact hfinished hp rfl WatcherPhase.noConfusion

theorem Told.step (hs : s.step env l = some t) (hw : WellBound s) (h : Told s) : Told t := by
  have hkeep : t.loop.pass? = s.loop.pass? → t.deferred = s.deferred →
      t.watcher.phase = s.watcher.phase → Told t :=
    fun hl hd hp => ⟨hl ▸ h.closing, hd ▸ h.queued, hp ▸ h.finished⟩
  cases l with
  | watch w => exact h.watchMove (watchStep_cases hs)
  | worker w =>
    rw [(workerStep_cases hs).frame] at hkeep ⊢
    exact hkeep rfl rfl rfl
  | rehash m streams =>
    rw [(State.rehash_frame hs).2] at hkeep ⊢
    exact hkeep rfl rfl rfl
  | rehashSockets ms =>
    obtain ⟨-, -, rfl⟩ := State.rehashSockets_frame hs
    exact hkeep rfl rfl rfl
  | loop w =>
    cases (loopStep_cases hs).closureMove hw with
    | quiet hq => exact hkeep (hq.after.trans hq.before.symm) hq.deferred hq.phase
    | skip hi hd hfree heq =>
      subst heq
      exact ⟨(fun _ hp => by cases hp), fun q hq => h.queued q (hd ▸ List.mem_cons_of_mem _ hq),
        h.finished⟩
    | @found p rest m id hi hd hb heq =>
      subst heq
      rw [State.runFound_frame]
      refine ⟨fun q hq => ?_, fun q hq => h.queued q (hd ▸ List.mem_cons_of_mem _ hq), h.finished⟩
      dsimp only at hq
      split at hq
      · rename_i hclose
        exact Option.some.inj hq ▸ hclose
      · cases hq
    | close hl hb heq =>
      subst heq
      exact ⟨(fun _ hp => by cases hp), h.queued, h.finished⟩

/-- What holds of the passes in every run. -/
structure PassesOk (s : State) : Prop where
  /-- the tables are consistent -/
  bound : WellBound s
  /-- a socket is where it was read -/
  seated : Seated s
  /-- closures have read, and close when they were told to -/
  told : Told s

theorem PassesOk.step (hs : s.step env l = some t) (h : PassesOk s) : PassesOk t :=
  ⟨h.bound.step hs, h.seated.step hs h.bound, h.told.step hs h.bound⟩

theorem PassesOk.initial (env : Env) : PassesOk (State.initial env) where
  bound := .initial env
  seated _ hp := by cases hp
  told := ⟨(fun _ hp => by cases hp), (fun _ hp => by cases hp), fun _ hp => by cases hp⟩

/-- Whatever matters to a pass over socket `k` was read from `k`. -/
def Clean (matters : Read → Bool) (s : State) (k : Nat) : Prop :=
  ∀ p ∈ s.openPasses, s.kernel.sockAt p.fd = some k →
    ∀ r ∈ p.reads, matters r = true → r.sock = some k

/-- **A socket that is clean stays clean.** -/
theorem Clean.step (hs : s.step env l = some t) (hw : WellBound s)
    (hk : k < s.kernel.socks.length) (h : Clean matters s k) : Clean matters t k := by
  intro p hp hsock r hr hmatters
  have hsock := (step_tableMove hs hw).sockAt_old hk hsock
  rcases step_mem_openPasses hs hw hp with hold | hnil | ⟨-, p', hp', result, rfl, -⟩
  · exact h p hold hsock r hr hmatters
  · rw [hnil] at hr
    cases hr
  · rcases List.mem_append.mp hr with hr | hr
    · exact h p' hp' hsock r hr hmatters
    · obtain rfl := List.mem_singleton.mp hr
      exact hsock

/-- The pass has read from socket `k`. -/
def Pass.readFrom (k : Nat) (p : Pass) : Bool := p.reads.any fun r => r.sock = some k

theorem Pass.readFrom_eq_true {p : Pass} :
    p.readFrom k = true ↔ ∃ r ∈ p.reads, r.sock = some k := by
  simp [readFrom]

theorem Pass.readFrom_read {p : Pass} {r : Read} :
    (p.read r).readFrom k = (p.readFrom k || decide (r.sock = some k)) := by
  simp [readFrom, read]

/-- The pending passes that have read from socket `k`, the oldest first. -/
def State.passesOf (s : State) (k : Nat) : List Pass := s.pendingPasses.filter (Pass.readFrom k)

/-- A pass that has read from a socket in use has its descriptor. -/
theorem Seated.sockAt {p : Pass} (h : Seated s) (hp : p ∈ s.openPasses) (huse : InUse s k)
    (hread : p.readFrom k = true) : s.kernel.sockAt p.fd = some k := by
  obtain ⟨r, hr, hrk⟩ := Pass.readFrom_eq_true.mp hread
  obtain ⟨fd, hsock⟩ := huse.opened
  rw [← (h p hp r hr k hrk).2 fd hsock]
  exact hsock

/-! ## What a step does to them -/

/-- An event by which nothing is read from socket `k`, and no closure sends on its stream. -/
def Event.Foreign (k : Nat) : Event → Prop
  | .read _ r => r.sock ≠ some k
  | .sent _ _ _ (.closure _ sock) => sock ≠ some k
  | _ => True

/-- What a step means for socket `k`, and for what is carried from it while it is in use. -/
inductive CarryMove (env : Env) (k : Nat) (s : State) (l : Label) (t : State) : Prop where
  /-- nothing -/
  | quiet : (InUse t k → t.passesOf k = s.passesOf k) → Extends (Event.Foreign k) s.log t.log →
      CarryMove env k s l t
  /-- the watcher reads from it -/
  | read {p : Pass} {r : Read} {ps : List Pass} : l = .watch (.read r.result) →
      s.watcher.phase = .reading p → s.kernel.sockAt p.fd = some k → r.sock = some k →
      s.passesOf k = ps ++ (if p.readFrom k then [p] else []) →
      t.passesOf k = ps ++ [p.read r] → t.log = s.log ++ [.read p.fd r] → CarryMove env k s l t
  /-- the oldest closure sends its DATA on the stream of the socket -/
  | sent {p : Pass} {rest : List Pass} {m : Nat} {id : UInt32} : l = .loop .deferred →
      s.loop = .idle → s.deferred = p :: rest → s.binding m id = some p.fd →
      s.kernel.sockAt p.fd = some k →
      s.passesOf k = (if p.readFrom k then [p] else []) ++ t.passesOf k →
      t = s.runFound env p rest m id → CarryMove env k s l t
  /-- a closure closes its stream -/
  | closed {p : Pass} {m : Nat} {id : UInt32} : s.loop = .closeFound p m id →
      s.binding m id = some p.fd → s.kernel.sockAt p.fd = some k → ¬ InUse t k →
      t = s.closeFound env p m id → CarryMove env k s l t

/-- Only a closure that runs changes the queue of closures. -/
theorem LoopMove.eq_deferred {w : LoopLabel} (hs : LoopMove env s w t)
    (hd : t.deferred ≠ s.deferred) : w = .deferred := by
  cases hs with
  | deferred => rfl
  | data hi hm hp hty =>
    rw [State.handleData_frame] at hd
    exact absurd rfl hd
  | drain hi hm =>
    rw [State.drain_frame] at hd
    exact absurd rfl hd
  | sweep hl =>
    rw [State.updateStreams_frame] at hd
    exact absurd rfl hd
  | _ => exact absurd rfl hd

/-- A read is logged with the socket that the descriptor of the pass stands for. -/
theorem log_watchRead {p : Pass} {result : ReadResult}
    (hs : s.step env (.watch (.read result)) = some t) (hphase : s.watcher.phase = .reading p) :
    t.log = s.log ++ [.read p.fd ⟨s.kernel.sockAt p.fd, result⟩] := by
  rw [State.step, State.watchStep, State.watchRead, hphase] at hs
  dsimp only at hs
  rw [Option.ite_none_right_eq_some] at hs
  obtain ⟨-, hs⟩ := hs
  obtain rfl := Option.some.inj hs
  rfl

/-- In a pass, the watcher reads. -/
theorem watchStep_reading {w : WatchLabel} {p : Pass} (hs : s.watchStep env w = some t)
    (hphase : s.watcher.phase = .reading p) : ∃ result, w = .read result := by
  cases w with
  | read result => exact ⟨result, rfl⟩
  | wait | next | erase | count | defer =>
    simp [State.watchStep, State.watchWait, State.watchNext, State.watchErase, State.watchCount,
      State.watchDefer, hphase] at hs

/-- The pass that reads is the one the watcher is in. -/
theorem State.reading_unique {p q : Pass} (hphase : s.watcher.phase = .reading q)
    (hpend : s.pendingPasses = s.deferred ++ [p]) : q = p := by
  have hpend' : s.pendingPasses = s.deferred ++ [q] := by
    rw [State.pendingPasses, hphase]
    rfl
  exact (List.cons.inj (List.append_cancel_left (hpend'.symm.trans hpend))).1

/-- What the watcher logs. -/
theorem watchStep_log {w : WatchLabel} (hs : s.watchStep env w = some t) : t.log = s.log ∨
    ∃ p result, w = .read result ∧ s.watcher.phase = .reading p ∧
      t.log = s.log ++ [.read p.fd ⟨s.kernel.sockAt p.fd, result⟩] := by
  cases watchStep_cases hs with
  | read hphase =>
    obtain ⟨result, rfl⟩ := watchStep_reading hs hphase
    exact Or.inr ⟨_, result, rfl, hphase, @log_watchRead env _ _ _ _ hs hphase⟩
  | _ => exact Or.inl rfl

theorem passesOf_of_pendingPasses (h : t.pendingPasses = s.pendingPasses) :
    t.passesOf k = s.passesOf k := by
  rw [State.passesOf, State.passesOf, h]

/-- A step that logs nothing of the watcher and nothing of a closure. -/
theorem foreign_of_closureLog (hlog : Extends (fun e => ∀ fd r, e ≠ .read fd r) s.log t.log)
    (hclosure : t.closureLog = s.closureLog) : Extends (Event.Foreign k) s.log t.log := by
  obtain ⟨es, hlog, hes⟩ := hlog
  rw [State.closureLog, State.closureLog, hlog, List.filter_append, List.append_right_eq_self,
    List.filter_eq_nil_iff] at hclosure
  refine ⟨es, hlog, fun e he => ?_⟩
  cases e with
  | read fd r => exact absurd rfl (hes _ he fd r)
  | sent m packet status origin =>
    cases origin with
    | server => trivial
    | closure p sock => exact absurd rfl (hclosure _ he)
  | _ => trivial

/-- The loop thread and the workers read nothing. -/
theorem WireMove.not_read (hs : WireMove env s l t) (hl : ∀ w, l ≠ .watch w) :
    Extends (fun e => ∀ fd r, e ≠ .read fd r) s.log t.log := by
  have hplain : ∀ e, Event.Plain s.binding e → ∀ fd r, e ≠ .read fd r := by
    rintro e he fd r rfl
    exact he
  have hsent : ∀ {m packet status origin}, ∀ fd r,
      Event.sent m packet status origin ≠ .read fd r := fun _ _ => Event.noConfusion
  cases hs with
  | quiet _ _ hlog => exact hlog.mono hplain
  | opened _ _ hlog => exact hlog ▸ .snoc hsent
  | read hw => exact absurd hw (hl _)
  | refused _ _ _ _ hlog ht => exact ht ▸ (hlog.mono hplain).trans (.snoc hsent)
  | stored _ _ hlog => exact hlog ▸ .snoc fun _ _ => Event.noConfusion
  | closed _ _ _ hlog =>
    rw [hlog]
    refine .append fun e he => ?_
    rcases List.mem_cons.mp he with rfl | he
    · exact hsent
    · obtain rfl := List.mem_singleton.mp he
      exact fun _ _ => Event.noConfusion

/-- Only the watcher reads, for the pass it is in. -/
theorem step_read {fd : Fd} {r : Read} (hs : s.step env l = some t) (hw : WellBound s)
    (hlog : t.log = s.log ++ [.read fd r]) : l = .watch (.read r.result) ∧
      ∃ p, s.watcher.phase = .reading p ∧ p.fd = fd ∧ r.sock = s.kernel.sockAt p.fd := by
  have hnot : (∀ w, l ≠ .watch w) → False := by
    intro hl
    have hnone := (step_wireMove hs hw).not_read hl
    rw [hlog] at hnone
    exact hnone.of_append _ (List.mem_singleton_self _) fd r rfl
  cases l with
  | watch w =>
    rcases watchStep_log hs with hsame | ⟨p, result, rfl, hphase, hnew⟩
    · rw [hsame] at hlog
      simp at hlog
    · have hevent := List.append_cancel_left (hnew.symm.trans hlog)
      obtain ⟨rfl, rfl⟩ := Event.read.inj (List.cons.inj hevent).1
      exact ⟨rfl, p, hphase, rfl, rfl⟩
  | _ => exact (hnot fun _ => Label.noConfusion).elim

/-- The socket was in use before, unless it is made by this step. -/
theorem InUse.of_socks (hs : s.step env l = some t) (hw : WellBound s)
    (hsocks : t.kernel.socks = s.kernel.socks) (huse : InUse t k) : InUse s k :=
  huse.of_step (step_tableMove hs hw) (hsocks ▸ huse.lt)

/-- A step that is not the watcher's, and logs nothing of a closure. -/
theorem step_foreign (hs : s.step env l = some t) (hw : WellBound s) (hl : ∀ w, l ≠ .watch w)
    (hclosure : t.closureLog = s.closureLog) : Extends (Event.Foreign k) s.log t.log :=
  foreign_of_closureLog ((step_wireMove hs hw).not_read hl) hclosure

/-- What a step of the watcher means for what is carried from a socket. -/
theorem watchStep_carryMove {w : WatchLabel} (hs : s.step env (.watch w) = some t)
    (hw : WellBound s) (hseat : Seated s) : CarryMove env k s (.watch w) t := by
  have hmove : WatchMove env s t := watchStep_cases hs
  cases hmove.passMove with
  | keep hpend hpasses hsame =>
    exact .quiet (fun _ => passesOf_of_pendingPasses hpend) (.of_eq hsame)
  | @start fd hpend hpasses hsame =>
    refine .quiet (fun _ => ?_) (.of_eq hsame)
    rw [State.passesOf, State.passesOf, hpend, List.filter_append]
    exact List.append_nil _
  | @read p r hr hpend hpend' hpasses hnew =>
    obtain ⟨hlabel, p', hphase, -, -⟩ := step_read hs hw hnew
    obtain rfl := State.reading_unique hphase hpend
    by_cases hk : s.kernel.sockAt p'.fd = some k
    · have hrk := hr.trans hk
      refine @CarryMove.read env k s _ t p' r (s.deferred.filter (Pass.readFrom k)) hlabel hphase
        hk hrk ?_ ?_ hnew
      · rw [State.passesOf, hpend, List.filter_append, List.filter_singleton]
        cases p'.readFrom k <;> rfl
      · rw [State.passesOf, hpend', List.filter_append, List.filter_singleton,
          Pass.readFrom_read, decide_eq_true hrk, Bool.or_true]
        rfl
    · have hrk : r.sock ≠ some k := hr ▸ hk
      refine .quiet (fun huse => ?_) (hnew ▸ .snoc hrk)
      -- a pass that has read from the socket would be under its descriptor
      have hnot : p'.readFrom k = false := by
        refine Bool.eq_false_iff.mpr fun hread => hk (hseat.sockAt ?_ ?_ hread)
        · rw [State.openPasses, hpend]
          exact List.mem_append_right _ (List.mem_append_right _ (List.mem_singleton_self p'))
        · exact huse.of_socks hs hw hmove.sameTable.socks
      rw [State.passesOf, State.passesOf, hpend, hpend', List.filter_append,
        List.filter_append, List.filter_singleton, List.filter_singleton, Pass.readFrom_read,
        hnot, decide_eq_false hrk]
      rfl

/-- What a step of the loop thread means for what is carried from a socket. -/
theorem loopStep_carryMove {w : LoopLabel} (hs : s.step env (.loop w) = some t)
    (hw : WellBound s) (hseat : Seated s) : CarryMove env k s (.loop w) t := by
  have hmove : LoopMove env s w t := loopStep_cases hs
  cases hmove.closureMove hw with
  | quiet hq =>
    exact .quiet (fun _ => passesOf_of_pendingPasses hq.pendingPasses)
      (step_foreign hs hw (fun _ => Label.noConfusion) hq.closureLog)
  | @skip p rest hi hd hfree heq =>
    subst heq
    refine .quiet (fun huse => ?_) (.refl _ _)
    -- the stream of the socket would have been found
    have hnot : p.readFrom k = false := by
      refine Bool.eq_false_iff.mpr fun hread => ?_
      have hold := huse.of_socks hs hw rfl
      have hsock := hseat.sockAt (State.mem_openPasses_of_deferred hd) hold hread
      obtain ⟨m, id, hb⟩ := hold.bound hi
      obtain ⟨fd, hb, hfd⟩ := State.boundSock_eq_some.mp hb
      exact hfree m id (Kernel.sockAt_inj hfd hsock ▸ hb)
    rw [State.passesOf, State.passesOf, State.pendingPasses, State.pendingPasses, hd,
      List.cons_append, List.filter_cons_of_neg (by rw [hnot]; exact Bool.false_ne_true)]
    rfl
  | @found p rest m id hi hd hb heq =>
    have hpend : s.pendingPasses = p :: t.pendingPasses := by
      rw [State.pendingPasses, State.pendingPasses, hd, heq, State.runFound_frame]
      rfl
    have hpasses : s.passesOf k = (if p.readFrom k then [p] else []) ++ t.passesOf k := by
      rw [State.passesOf, hpend, List.filter_cons]
      cases p.readFrom k <;> rfl
    obtain ⟨n, hbound, hn, -⟩ := hw.table.owner hb
    by_cases hnk : n = k
    · subst hnk
      refine .sent ?_ hi hd hb hn hpasses heq
      congr 1
      refine hmove.eq_deferred ?_
      rw [hd, heq, State.runFound_frame]
      exact (List.cons_ne_self p rest).symm
    · refine .quiet (fun huse => ?_) ?_
      · have hnot : p.readFrom k = false := by
          refine Bool.eq_false_iff.mpr fun hread => hnk ?_
          have hold := huse.of_socks hs hw (by rw [heq, State.runFound_frame])
          have hsock := hseat.sockAt (State.mem_openPasses_of_deferred hd) hold hread
          exact Option.some.inj (hn.symm.trans hsock)
        rw [hnot] at hpasses
        exact hpasses.symm
      · rw [heq, State.log_runFound, hbound]
        exact .snoc fun he => hnk (Option.some.inj he)
  | @close p m id hl hb heq =>
    obtain ⟨n, hbound, hn, -⟩ := hw.table.owner hb
    by_cases hnk : n = k
    · subst hnk
      refine .closed hl hb hn (fun huse => ?_) heq
      -- no descriptor stands for the socket any more
      obtain ⟨fd, hfd⟩ := huse.opened
      rw [heq, State.sockAt_closeFound hb, Function.update_apply] at hfd
      split at hfd
      · cases hfd
      · rename_i hne
        exact hne (Kernel.sockAt_inj hfd hn)
    · subst heq
      refine .quiet (fun _ => rfl) ?_
      obtain ⟨fd, sock, hlog⟩ :=
        @State.log_closeStream env s m id false (.closure p (s.boundSock m id))
      refine ⟨_, hlog, fun e he => ?_⟩
      rcases List.mem_cons.mp he with rfl | he
      · exact fun he => hnk (Option.some.inj (hbound.symm.trans he))
      · obtain rfl := List.mem_singleton.mp he
        trivial

/-- **What a step means for what is carried from a socket.** -/
theorem step_carryMove (hs : s.step env l = some t) (hw : WellBound s) (hseat : Seated s) :
    CarryMove env k s l t := by
  cases l with
  | watch w => exact watchStep_carryMove hs hw hseat
  | loop w => exact loopStep_carryMove hs hw hseat
  | worker w =>
    have hmove : WorkerMove env s w t := workerStep_cases hs
    exact .quiet (fun _ => passesOf_of_pendingPasses hmove.pendingPasses.1)
      (step_foreign hs hw (fun _ => Label.noConfusion) hmove.closureLog)
  | rehash m streams =>
    have hframe := (State.rehash_frame hs).2
    refine .quiet (fun _ => passesOf_of_pendingPasses ?_) (.of_eq ?_)
    · rw [hframe]
      rfl
    · rw [hframe]
  | rehashSockets ms =>
    obtain ⟨-, -, rfl⟩ := State.rehashSockets_frame hs
    exact .quiet (fun _ => rfl) (.refl _ _)

/-- A socket that is not made yet has no part in the log. -/
def Unmade (s : State) (k : Nat) : Prop :=
  s.kernel.socks.length ≤ k → ∀ e ∈ s.log, e.Foreign k

theorem Unmade.step (hs : s.step env l = some t) (hw : WellBound s) (hseat : Seated s)
    (h : Unmade s k) : Unmade t k := by
  intro hle e he
  have hle := Nat.le_trans (step_tableMove hs hw).socks_le hle
  cases @step_carryMove env s t l k hs hw hseat with
  | quiet hpasses hlog => exact (hlog.mem he).elim (h hle e) fun hf => hf
  | read _ _ hsock | sent _ _ _ _ hsock | closed _ _ hsock =>
    exact absurd (Kernel.sockAt_lt hsock) (Nat.not_lt.mpr hle)

/-- Socket `k` is made in this step, and has no part in what happened before. -/
structure SocketMade (k : Nat) (s : State) (l : Label) (t : State) : Prop where
  /-- its number -/
  number : k = s.kernel.socks.length
  /-- `socket()` returns a descriptor for it -/
  call : ∃ fd, l = .loop (.socket (some fd)) ∧
    ∀ p ∈ t.openPasses, t.kernel.sockAt p.fd = some k → p.fd = fd
  /-- the passes are as they were -/
  openPasses : t.openPasses = s.pendingPasses
  /-- none has read from it -/
  unread : ∀ p ∈ t.openPasses, ∀ r ∈ p.reads, r.sock ≠ some k
  /-- nothing is logged about it -/
  foreign : ∀ e ∈ t.log, e.Foreign k

theorem SocketMade.passesOf (h : SocketMade k s l t) : t.passesOf k = [] := by
  refine List.filter_eq_nil_iff.mpr fun p hp hread => ?_
  obtain ⟨r, hr, hrk⟩ := Pass.readFrom_eq_true.mp hread
  exact h.unread p (List.mem_append_right _ hp) r hr hrk

/-- It is clean if nothing that matters is pending under its number. -/
theorem SocketMade.clean (h : SocketMade k s l t) (hclear : ∀ fd, l = .loop (.socket (some fd)) →
    ∀ p ∈ s.pendingPasses, p.fd = fd → ∀ r ∈ p.reads, matters r = false) : Clean matters t k := by
  obtain ⟨fd, hl, hfd⟩ := h.call
  intro p hp hsock r hr hmatters
  rw [hclear fd hl p (h.openPasses ▸ hp) (hfd p hp hsock) r hr] at hmatters
  cases hmatters

/-- A socket that is there after the step, and was not before. -/
theorem step_socketMade (hs : s.step env l = some t) (hok : PassesOk s) (hunmade : Unmade s k)
    (hle : s.kernel.socks.length ≤ k) (hlt : k < t.kernel.socks.length) : SocketMade k s l t := by
  have hold : t.kernel.socks = s.kernel.socks → False := fun he => by
    rw [he] at hlt
    omega
  cases step_tableMove hs hok.bound with
  | same _ hsocks | abandon _ _ hsocks | insert _ _ hsocks | close _ _ _ _ _ hsocks =>
    exact (hold hsocks).elim
  | @socket c fd hl hnone hsock hsocks hbind hfd =>
    rw [hsocks, List.length_append, List.length_singleton] at hlt
    obtain rfl : k = s.kernel.socks.length := by omega
    have hmove : LoopMove env s (.socket (some fd)) t := loopStep_cases hs
    have hsame : t.log = s.log ∧ t.openPasses = s.pendingPasses := by
      cases hmove with
      | socket => exact ⟨rfl, rfl⟩
    have hopen : t.openPasses = s.openPasses := hsame.2.trans (State.openPasses_of_loop hl).symm
    refine ⟨rfl, ⟨fd, rfl, fun p _ hp => ?_⟩, hsame.2, fun p hp r hr hrk => ?_, ?_⟩
    · rw [hsock, Function.update_apply] at hp
      split at hp
      · assumption
      · exact absurd (Kernel.sockAt_lt hp) (Nat.lt_irrefl _)
    · exact Nat.lt_irrefl _ (hok.seated p (hopen ▸ hp) r hr _ hrk).1
    · rw [hsame.1]
      exact hunmade (Nat.le_refl _)

end Woeful
