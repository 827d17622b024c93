import Woeful.Descriptors

/-!
# What deferred closures send

A closure sends in two places: its DATA when it runs (`deferred_cases`) and its
CLOSE when it has found a stream to close. `closureLog` is the part of the log
that closures wrote; every other step leaves it alone, so a fact about it is
kept by a step as soon as it is kept by these two (`closureLog_step`).

Passes are numbered when they start. A number is used by one pass, the pass is
in one place at a time, and it leaves a trace in `closureLog` only on its way
out; hence a closure sends at most one DATA and closes at most one stream
(`descriptors_unique`).
-/

namespace Woeful

open Memory Transition

variable {env : Env} {s t : State}

/-! ## The log of the closures -/

/-- Whether a frame was sent by a deferred closure. -/
def Event.fromClosure : Event → Bool
  | .sent _ _ _ (.closure _ _) => true
  | _ => false

/-- The frames that deferred closures sent, in order. -/
def State.closureLog (s : State) : List Event := s.log.filter Event.fromClosure

namespace State

variable {m : Nat}

theorem closureLog_record {e : Event} (h : e.fromClosure = false) :
    (s.record e).closureLog = s.closureLog := by
  rw [closureLog, record, List.filter_append, List.filter_singleton, h]
  exact List.append_nil _

theorem closureLog_record_closure {e : Event} (h : e.fromClosure = true) :
    (s.record e).closureLog = s.closureLog ++ [e] := by
  rw [closureLog, record, List.filter_append, List.filter_singleton, h]
  rfl

theorem closureLog_send (packet : WispPacket) :
    (s.send env m packet .server).closureLog = s.closureLog :=
  closureLog_record rfl

theorem closureLog_refuse (c : ConnectCall) : (s.refuse env c).closureLog = s.closureLog :=
  closureLog_record (s := { s with loop := .idle }) rfl

theorem closureLog_closeFd (fd : Fd) : (s.closeFd fd).closureLog = s.closureLog :=
  closureLog_record (s := { s with kernel := s.kernel.close fd }) rfl

theorem closureLog_foldl_sendContinue {A : Type} (f : A → UInt32) (l : List A) :
    ∀ s : State, (l.foldl (fun s a => s.sendContinue env m bufferCount (f a)) s).closureLog =
      s.closureLog := by
  induction l with
  | nil => exact fun _ => rfl
  | cons a l ih => exact fun s => (ih _).trans (closureLog_send _)

theorem closureLog_updateStreams : (s.updateStreams env m).closureLog = s.closureLog := by
  rw [updateStreams]
  split
  · rfl
  · split
    · rfl
    · exact closureLog_foldl_sendContinue _ _ s

theorem closureLog_handleData (packet : WispPacket) :
    (s.handleData env m packet).2.closureLog = s.closureLog := by
  rw [handleData]
  split
  · rfl
  · have hsub : ∀ t : WriteTask, (s.submitTask t).closureLog = s.closureLog :=
      fun _ => closureLog_record rfl
    dsimp only
    split
    · split
      · exact (closureLog_send _).trans (hsub _)
      · exact hsub _
    · exact hsub _

theorem closureLog_closeStream_server {id : UInt32} {removePoll : Bool} :
    (s.closeStream env m id removePoll .server).closureLog = s.closureLog := by
  cases removePoll <;> exact (closureLog_record rfl).trans (closureLog_record rfl)

/-- The one frame of a closure that closes a stream. -/
theorem closureLog_closeFound {p : Pass} {id : UInt32} :
    (s.closeFound env p m id).closureLog = s.closureLog ++
      [.sent m ⟨packetClose, id, ClosePacket.serialize 0x02⟩ (s.sendStatus env)
        (.closure p (s.boundSock m id))] :=
  (closureLog_record rfl).trans (closureLog_record_closure rfl)

end State

theorem WatchMove.closureLog (h : WatchMove env s t) : t.closureLog = s.closureLog := by
  cases h with
  | read hp hr => exact State.closureLog_record rfl
  | _ => rfl

theorem WorkerMove.closureLog {l : WorkerLabel} (h : WorkerMove env s l t) :
    t.closureLog = s.closureLog := by
  cases h with
  | begin hi hd => exact State.closureLog_record rfl
  | fault hi hd => exact State.closureLog_record rfl
  | write hi hn => exact State.closureLog_record rfl
  | _ => rfl

/-! ## A closure runs -/

/-- The search found nothing: the closure goes on to its end. -/
def State.skipDeferred (s : State) (rest : List Pass) : State :=
  { s with deferred := rest, loop := .decrement }

/-- The search found stream `id` of manager `m`. -/
def State.runFound (env : Env) (s : State) (p : Pass) (rest : List Pass) (m : Nat) (id : UInt32) :
    State :=
  { State.deliver env { s with deferred := rest } p (m, id) with
    loop := if p.toClose then .closeFound p m id else .decrement }

/-- **What a closure does when it runs**: nothing but leave the queue, or one
DATA to the one stream that holds its descriptor. -/
theorem deferred_cases (h : TableOk s) (p : Pass) (rest : List Pass)
    (ht : t = { (s.holders p.fd).foldl (fun s h => s.deliver env p h) { s with deferred := rest }
      with loop := State.afterDeliver p (s.holders p.fd) }) :
    (t = s.skipDeferred rest ∧ ∀ m id, s.binding m id ≠ some p.fd) ∨
      ∃ m id, s.binding m id = some p.fd ∧ t = s.runFound env p rest m id := by
  rcases holders_eq h p.fd with ⟨hnone, hfree⟩ | ⟨m, id, hone, hb⟩
  · rw [hnone] at ht
    exact Or.inl ⟨ht, hfree⟩
  · rw [hone] at ht
    exact Or.inr ⟨m, id, hb, ht⟩

namespace State

variable {p : Pass} {rest : List Pass} {m : Nat} {id : UInt32}

theorem log_runFound : (s.runFound env p rest m id).log = s.log ++
    [.sent m ⟨packetData, id, p.combinedBuffer⟩ (s.sendStatus env)
      (.closure p (s.boundSock m id))] := by
  rw [runFound, deliver]
  split <;> rfl

theorem closureLog_runFound : (s.runFound env p rest m id).closureLog = s.closureLog ++
    [.sent m ⟨packetData, id, p.combinedBuffer⟩ (s.sendStatus env)
      (.closure p (s.boundSock m id))] := by
  rw [closureLog, log_runFound, List.filter_append]
  rfl

theorem runFound_frame : s.runFound env p rest m id = { s with
    managers := (s.runFound env p rest m id).managers
    deferred := rest
    loop := if p.toClose then .closeFound p m id else .decrement
    log := (s.runFound env p rest m id).log } := by
  rw [runFound, deliver]
  split <;> rfl

theorem sameTable_runFound : SameTable s (s.runFound env p rest m id) :=
  have hpop : SameTable s { s with deferred := rest } := .of_eq rfl rfl rfl rfl
  (hpop.trans (.deliver _ p (m, id))).trans (.setLoop _ _)

end State

theorem State.mem_openPasses_of_deferred {p : Pass} {rest : List Pass}
    (hd : s.deferred = p :: rest) : p ∈ s.openPasses := by
  rw [openPasses, pendingPasses, hd]
  simp

theorem State.openPasses_of_loop {l : LoopState} (hl : s.loop = l) :
    s.openPasses = l.pass?.toList ++ s.pendingPasses := by
  rw [openPasses, hl]

/-! ## What a step means for the closures -/

/-- A step that no closure takes part in. -/
structure Quiet (s t : State) : Prop where
  /-- no closure sends -/
  closureLog : t.closureLog = s.closureLog
  /-- no closure is queued and none leaves the queue -/
  deferred : t.deferred = s.deferred
  /-- the watcher stands where it stood -/
  phase : t.watcher.phase = s.watcher.phase
  /-- so do its events -/
  events : t.watcher.events = s.watcher.events
  /-- and the number of passes -/
  passes : t.watcher.passes = s.watcher.passes
  /-- no closure is about to close a stream -/
  before : s.loop.pass? = none
  /-- nor is one afterwards -/
  after : t.loop.pass? = none

namespace Quiet

theorem pendingPasses (h : Quiet s t) : t.pendingPasses = s.pendingPasses := by
  rw [State.pendingPasses, State.pendingPasses, h.deferred, h.phase]

theorem openPasses (h : Quiet s t) : t.openPasses = s.openPasses := by
  rw [State.openPasses, State.openPasses, h.before, h.after, h.pendingPasses]

end Quiet

/-- What a step of the loop thread means for the closures. -/
inductive ClosureMove (env : Env) (s t : State) : Prop where
  /-- no closure takes part -/
  | quiet : Quiet s t → ClosureMove env s t
  /-- the oldest closure finds nothing -/
  | skip {p : Pass} {rest : List Pass} : s.loop = .idle → s.deferred = p :: rest →
      (∀ m id, s.binding m id ≠ some p.fd) → t = s.skipDeferred rest → ClosureMove env s t
  /-- the oldest closure sends its DATA -/
  | found {p : Pass} {rest : List Pass} {m : Nat} {id : UInt32} : s.loop = .idle →
      s.deferred = p :: rest → s.binding m id = some p.fd → t = s.runFound env p rest m id →
      ClosureMove env s t
  /-- the closure closes the stream it found -/
  | close {p : Pass} {m : Nat} {id : UInt32} : s.loop = .closeFound p m id →
      s.binding m id = some p.fd → t = s.closeFound env p m id → ClosureMove env s t

theorem LoopMove.closureMove {l : LoopLabel} (hs : LoopMove env s l t) (h : WellBound s) :
    ClosureMove env s t := by
  have hpass : ∀ {u : State} {l : LoopState}, u.loop = l → l.pass? = none → u.loop.pass? = none :=
    fun hl hp => hl ▸ hp
  cases hs with
  | opened hi =>
    exact .quiet ⟨State.closureLog_send _, rfl, rfl, rfl, rfl, hpass hi rfl, hpass hi rfl⟩
  | info hi hm hp hty => exact .quiet ⟨rfl, rfl, rfl, rfl, rfl, hpass hi rfl, hpass hi rfl⟩
  | other hi hm hp hc hd => exact .quiet ⟨rfl, rfl, rfl, rfl, rfl, hpass hi rfl, hpass hi rfl⟩
  | connect hi hm hp hty hcm hid => exact .quiet ⟨rfl, rfl, rfl, rfl, rfl, hpass hi rfl, rfl⟩
  | refuse hi hm hp hty hcm hid =>
    exact .quiet ⟨State.closureLog_refuse _, rfl, rfl, rfl, rfl, hpass hi rfl, rfl⟩
  | @data m view packet hi hm hp hty =>
    have hlog : ((s.endHandshake m).handleData env m packet).2.closureLog = s.closureLog :=
      State.closureLog_handleData packet
    rw [State.handleData_frame] at hlog ⊢
    exact .quiet ⟨hlog, rfl, rfl, rfl, rfl, hpass hi rfl, hpass hi rfl⟩
  | @drain m hi hm =>
    have hlog : (s.drain env m).closureLog = s.closureLog :=
      State.closureLog_updateStreams (s := s.setBackpressure m false)
    rw [State.drain_frame] at hlog ⊢
    exact .quiet ⟨hlog, rfl, rfl, rfl, rfl, hpass hi rfl, hpass hi rfl⟩
  | close hi hm => exact .quiet ⟨rfl, rfl, rfl, rfl, rfl, hpass hi rfl, rfl⟩
  | @deferred p rest hi hd =>
    rcases deferred_cases h.table p rest rfl with ⟨heq, hfree⟩ | ⟨m, id, hb, heq⟩
    · exact .skip hi hd hfree heq
    · exact .found hi hd hb heq
  | socketFail hl =>
    exact .quiet ⟨State.closureLog_refuse _, rfl, rfl, rfl, rfl, hpass hl rfl, rfl⟩
  | socket hfd hl => exact .quiet ⟨rfl, rfl, rfl, rfl, rfl, hpass hl rfl, rfl⟩
  | connected hl => exact .quiet ⟨rfl, rfl, rfl, rfl, rfl, hpass hl rfl, rfl⟩
  | @connectFail c fd hl =>
    have hlog : ((s.closeFd fd).refuse env c).closureLog = s.closureLog :=
      (State.closureLog_refuse c).trans (State.closureLog_closeFd fd)
    exact .quiet ⟨hlog, rfl, rfl, rfl, rfl, hpass hl rfl, rfl⟩
  | pushFd hl => exact .quiet ⟨rfl, rfl, rfl, rfl, rfl, hpass hl rfl, rfl⟩
  | insert hl hfree =>
    exact .quiet ⟨State.closureLog_record rfl, rfl, rfl, rfl, rfl, hpass hl rfl, rfl⟩
  | listIds hl hfree => exact .quiet ⟨rfl, rfl, rfl, rfl, rfl, hpass hl rfl, rfl⟩
  | closeNext hl hfree =>
    exact .quiet ⟨State.closureLog_closeStream_server, rfl, rfl, rfl, rfl, hpass hl rfl, rfl⟩
  | destruct hl => exact .quiet ⟨rfl, rfl, rfl, rfl, rfl, hpass hl rfl, rfl⟩
  | closeFound hl hfree =>
    have hb := h.loop
    rw [hl] at hb
    exact .close hl hb rfl
  | decrement hl => exact .quiet ⟨rfl, rfl, rfl, rfl, rfl, hpass hl rfl, rfl⟩
  | check hl =>
    refine .quiet ⟨rfl, rfl, rfl, rfl, rfl, hpass hl rfl, ?_⟩
    rw [State.checkQueue]
    dsimp only
    split <;> rfl
  | sweepDone hl => exact .quiet ⟨rfl, rfl, rfl, rfl, rfl, hpass hl rfl, rfl⟩
  | @sweep m ms hl =>
    have hlog : (s.updateStreams env m).closureLog = s.closureLog := State.closureLog_updateStreams
    rw [State.updateStreams_frame] at hlog ⊢
    exact .quiet ⟨hlog, rfl, rfl, rfl, rfl, hpass hl rfl, rfl⟩

/-- The workers have no part in the closures. -/
theorem WorkerMove.pendingPasses {l : WorkerLabel} (h : WorkerMove env s l t) :
    t.pendingPasses = s.pendingPasses ∧ t.openPasses = s.openPasses := by
  rw [h.frame]
  exact ⟨rfl, rfl⟩

/-- What a step of the watcher means for the passes. -/
inductive PassMove (s t : State) : Prop where
  /-- every pass is where it was, or one goes from the watcher to the queue -/
  | keep : t.pendingPasses = s.pendingPasses → t.watcher.passes = s.watcher.passes →
      t.log = s.log → PassMove s t
  /-- a pass starts, with the next number -/
  | start {fd : Fd} : t.pendingPasses = s.pendingPasses ++ [Pass.start fd s.watcher.passes] →
      t.watcher.passes = s.watcher.passes + 1 → t.log = s.log → PassMove s t
  /-- the pass the watcher is in reads once more -/
  | read {p : Pass} {r : Read} : r.sock = s.kernel.sockAt p.fd →
      s.pendingPasses = s.deferred ++ [p] → t.pendingPasses = s.deferred ++ [p.read r] →
      t.watcher.passes = s.watcher.passes → t.log = s.log ++ [.read p.fd r] → PassMove s t

theorem WatchMove.passMove (hs : WatchMove env s t) : PassMove s t := by
  have hbefore : ∀ {phase : WatcherPhase}, s.watcher.phase = phase →
      s.pendingPasses = s.deferred ++ phase.pass?.toList := fun h => by rw [State.pendingPasses, h]
  cases hs with
  | wait hp => exact .keep (hbefore hp).symm rfl rfl
  | done hp => exact .keep (hbefore hp).symm rfl rfl
  | skip hp => exact .keep rfl rfl rfl
  | @start fd events hp he hne =>
    have hnone : s.pendingPasses = s.deferred := (hbefore hp).trans (List.append_nil _)
    exact @PassMove.start _ _ fd (hnone ▸ rfl) rfl rfl
  | @read p result hp hr =>
    have hafter := State.pass?_afterRead (p.read ⟨s.kernel.sockAt p.fd, result⟩) result
    refine .read rfl (hbefore hp) ?_ rfl rfl
    exact congrArg (s.deferred ++ Option.toList ·) hafter
  | erase hp => exact .keep (hbefore hp).symm rfl rfl
  | count hp => exact .keep (hbefore hp).symm rfl rfl
  | defer hp =>
    have hsome : s.pendingPasses = s.deferred ++ [_] := hbefore hp
    refine .keep ?_ rfl rfl
    rw [hsome]
    exact List.append_nil _

/-! ## Every closure sends once -/

/-- The pass whose closure sent this DATA. -/
def Event.dataSerial : Event → Option Nat
  | .sent _ packet _ (.closure p _) =>
    if packet.packetType = packetData then some p.serial else none
  | _ => none

/-- The pass whose closure sent this CLOSE. -/
def Event.closeSerial : Event → Option Nat
  | .sent _ packet _ (.closure p _) =>
    if packet.packetType = packetClose then some p.serial else none
  | _ => none

theorem Event.serial_of_not_closure {e : Event} (h : e.fromClosure = false) :
    e.dataSerial = none ∧ e.closeSerial = none := by
  cases e with
  | sent m packet status origin =>
    cases origin with
    | server => exact ⟨rfl, rfl⟩
    | closure p sock => cases h
  | _ => exact ⟨rfl, rfl⟩

namespace State

/-- A collection over the log that only closures contribute to. -/
theorem filterMap_closureLog {A : Type} {f : Event → Option A}
    (hf : ∀ e : Event, e.fromClosure = false → f e = none) :
    s.closureLog.filterMap f = s.log.filterMap f := by
  rw [closureLog, List.filterMap_filter]
  congr 1
  funext e
  split
  · rfl
  · rename_i h
    exact (hf e (by simpa using h)).symm

/-- The passes whose closure sent DATA, then those that still may. -/
def dataTrace (s : State) : List Nat :=
  s.closureLog.filterMap Event.dataSerial ++ s.pendingPasses.map (·.serial)

/-- The passes whose closure closed a stream, then those that still may. -/
def closeTrace (s : State) : List Nat :=
  s.closureLog.filterMap Event.closeSerial ++ s.openPasses.map (·.serial)

end State

/-- No number is used twice, and the next one is not used yet. -/
structure Numbered (s : State) : Prop where
  /-- a pass sends DATA once -/
  data : s.dataTrace.Nodup
  /-- and closes once -/
  close : s.closeTrace.Nodup
  /-- the numbers of `dataTrace` are old -/
  dataLt : ∀ n ∈ s.dataTrace, n < s.watcher.passes
  /-- and so are those of `closeTrace` -/
  closeLt : ∀ n ∈ s.closeTrace, n < s.watcher.passes

namespace Numbered

/-- Steps that start no pass only move numbers or forget them. -/
theorem of_sublist (h : Numbered s) (hd : t.dataTrace.Sublist s.dataTrace)
    (hc : t.closeTrace.Sublist s.closeTrace) (hp : t.watcher.passes = s.watcher.passes) :
    Numbered t where
  data := h.data.sublist hd
  close := h.close.sublist hc
  dataLt n hn := hp ▸ h.dataLt n (hd.subset hn)
  closeLt n hn := hp ▸ h.closeLt n (hc.subset hn)

/-- Starting a pass takes the next number. -/
theorem of_start (h : Numbered s) (hd : t.dataTrace = s.dataTrace ++ [s.watcher.passes])
    (hc : t.closeTrace = s.closeTrace ++ [s.watcher.passes])
    (hp : t.watcher.passes = s.watcher.passes + 1) : Numbered t := by
  have hfresh : ∀ {l : List Nat}, l.Nodup → (∀ n ∈ l, n < s.watcher.passes) →
      (l ++ [s.watcher.passes]).Nodup ∧ ∀ n ∈ l ++ [s.watcher.passes], n < t.watcher.passes := by
    intro l hl hlt
    constructor
    · rw [List.nodup_append]
      refine ⟨hl, List.nodup_singleton _, fun a ha b hb => ?_⟩
      obtain rfl := List.mem_singleton.mp hb
      exact Nat.ne_of_lt (hlt a ha)
    · intro n hn
      rw [hp]
      rcases List.mem_append.mp hn with hn | hn
      · exact Nat.lt_succ_of_lt (hlt n hn)
      · obtain rfl := List.mem_singleton.mp hn
        exact Nat.lt_succ_self _
  obtain ⟨hd1, hd2⟩ := hfresh h.data h.dataLt
  obtain ⟨hc1, hc2⟩ := hfresh h.close h.closeLt
  exact ⟨hd ▸ hd1, hc ▸ hc1, hd ▸ hd2, hc ▸ hc2⟩

theorem watchMove (hs : WatchMove env s t) (h : Numbered s) : Numbered t := by
  have hmove : (t.pendingPasses.map (·.serial) = s.pendingPasses.map (·.serial) ∧
        t.watcher.passes = s.watcher.passes) ∨
      (t.pendingPasses.map (·.serial) = s.pendingPasses.map (·.serial) ++ [s.watcher.passes] ∧
        t.watcher.passes = s.watcher.passes + 1) := by
    cases hs.passMove with
    | keep hpend hpasses hlog => exact Or.inl ⟨congrArg _ hpend, hpasses⟩
    | start hpend hpasses hlog => exact Or.inr ⟨by simp [hpend, Pass.start], hpasses⟩
    | read hr hpend hpend' hpasses hlog =>
      exact Or.inl ⟨by simp [hpend, hpend', Pass.read], hpasses⟩
  have hdata : t.dataTrace = s.closureLog.filterMap Event.dataSerial ++
      t.pendingPasses.map (·.serial) := by
    rw [State.dataTrace, hs.closureLog]
  have hclose : t.closeTrace = s.closureLog.filterMap Event.closeSerial ++
      (s.loop.pass?.toList.map (·.serial) ++ t.pendingPasses.map (·.serial)) := by
    rw [State.closeTrace, hs.closureLog, State.openPasses, hs.loop, List.map_append]
  rcases hmove with ⟨hsame, hpasses⟩ | ⟨hnew, hpasses⟩
  · rw [hsame] at hdata hclose
    refine h.of_sublist (by rw [hdata]; rfl) ?_ hpasses
    rw [hclose, State.closeTrace, State.openPasses, List.map_append]
  · rw [hnew] at hdata hclose
    refine h.of_start ?_ ?_ hpasses
    · rw [hdata, State.dataTrace, List.append_assoc]
    · rw [hclose, State.closeTrace, State.openPasses, List.map_append]
      simp only [List.append_assoc]

theorem closureMove (hs : ClosureMove env s t) (h : Numbered s) : Numbered t := by
  cases hs with
  | quiet hq =>
    refine h.of_sublist ?_ ?_ hq.passes
    · rw [State.dataTrace, State.dataTrace, hq.closureLog, hq.pendingPasses]
    · rw [State.closeTrace, State.closeTrace, hq.closureLog, hq.openPasses]
  | @skip p rest hi hd hfree heq =>
    subst heq
    have hpend : (s.skipDeferred rest).pendingPasses.Sublist s.pendingPasses := by
      rw [State.pendingPasses, State.pendingPasses, hd]
      exact (List.sublist_cons_self p rest).append_right _
    refine h.of_sublist ((hpend.map _).append_left _) ?_ rfl
    rw [State.closeTrace, State.closeTrace, State.openPasses, State.openPasses, hi]
    exact (hpend.map _).append_left _
  | @found p rest m id hi hd hb heq =>
    subst heq
    have hpend : s.pendingPasses = p :: (s.runFound env p rest m id).pendingPasses := by
      rw [State.pendingPasses, State.pendingPasses, hd, State.runFound_frame]
      rfl
    refine h.of_sublist ?_ ?_ (by rw [State.runFound_frame])
    · rw [State.dataTrace, State.dataTrace, State.closureLog_runFound, hpend, List.filterMap_append]
      simp [Event.dataSerial]
    · rw [State.closeTrace, State.closeTrace, State.closureLog_runFound, List.filterMap_append,
        State.openPasses, State.openPasses, hpend, hi]
      have hloop : (s.runFound env p rest m id).loop.pass?.toList.Sublist [p] := by
        rw [State.runFound_frame]
        dsimp only
        split
        · exact List.Sublist.refl _
        · exact List.nil_sublist _
      have hnone : ([.sent m ⟨packetData, id, p.combinedBuffer⟩ (s.sendStatus env)
          (.closure p (s.boundSock m id))] : List Event).filterMap Event.closeSerial = [] := rfl
      rw [hnone, List.append_nil]
      exact ((hloop.append_right _).map _).append_left _
  | @close p m id hl hb heq =>
    subst heq
    have hpend : (s.closeFound env p m id).pendingPasses = s.pendingPasses := rfl
    have hnone : ([.sent m ⟨packetClose, id, ClosePacket.serialize 0x02⟩ (s.sendStatus env)
        (.closure p (s.boundSock m id))] : List Event).filterMap Event.dataSerial = [] := rfl
    refine h.of_sublist ?_ ?_ rfl
    · rw [State.dataTrace, State.dataTrace, State.closureLog_closeFound, hpend,
        List.filterMap_append, hnone, List.append_nil]
    · rw [State.closeTrace, State.closeTrace, State.closureLog_closeFound, List.filterMap_append,
        State.openPasses, State.openPasses, hpend, hl]
      simp [Event.closeSerial, LoopState.pass?, State.closeFound]

theorem step {l : Label} (hs : s.step env l = some t) (hw : WellBound s) (h : Numbered s) :
    Numbered t := by
  cases l with
  | loop l => exact h.closureMove ((loopStep_cases hs).closureMove hw)
  | watch l => exact h.watchMove (watchStep_cases hs)
  | worker l =>
    have hmove := workerStep_cases hs
    obtain ⟨hpend, hopen⟩ := hmove.pendingPasses
    refine h.of_sublist ?_ ?_ (by rw [hmove.frame])
    · rw [State.dataTrace, State.dataTrace, hmove.closureLog, hpend]
    · rw [State.closeTrace, State.closeTrace, hmove.closureLog, hopen]
  | rehash m streams =>
    obtain ⟨-, hframe⟩ := State.rehash_frame hs
    rw [hframe]
    exact h.of_sublist (List.Sublist.refl _) (List.Sublist.refl _) rfl
  | rehashSockets ms =>
    obtain ⟨-, -, rfl⟩ := State.rehashSockets_frame hs
    exact h.of_sublist (List.Sublist.refl _) (List.Sublist.refl _) rfl

theorem initial (env : Env) : Numbered (State.initial env) where
  data := List.nodup_nil
  close := List.nodup_nil
  dataLt n hn := by cases hn
  closeLt n hn := by cases hn

theorem of_reaches {guard : State → Label → Prop} (h : (server env).Reaches guard s) :
    Numbered s :=
  h.invariant_of (fun _ => WellBound.of_reaches) (.initial env)
    fun _ _ _ _ hst hw hn => hn.step hst hw

end Numbered

/-! ## Descriptor uniqueness -/

/-- The stream that the loop thread is about to call `close_stream` for. -/
def State.closing? (s : State) : Option (Nat × UInt32) :=
  match s.loop with
  | .closing m (id :: _) => some (m, id)
  | .closeFound _ m id => some (m, id)
  | _ => none

/-- What descriptor uniqueness means of a state. -/
structure DescriptorsUnique (s : State) : Prop where
  /-- the watched sockets are the managers that exist -/
  watched : ∀ m, m ∈ s.watcher.watchedSockets ↔ m ∈ s.managers
  /-- every stored descriptor is open -/
  opened : ∀ m id d, s.stream m id = some d → s.kernel.files d.fd ≠ none
  /-- no two streams, of one manager or of two, hold the same descriptor -/
  unique : ∀ m id d m' id' d', s.stream m id = some d → s.stream m' id' = some d' →
    d.fd = d'.fd → m = m' ∧ id = id'
  /-- `close_stream` is called for streams that are present -/
  present : ∀ m id, s.closing? = some (m, id) → s.stream m id ≠ none
  /-- no closure has sent two DATA -/
  dataOnce : (s.log.filterMap Event.dataSerial).Nodup
  /-- and none has closed two streams -/
  closeOnce : (s.log.filterMap Event.closeSerial).Nodup

/-- **Descriptor uniqueness**, in every reachable state. -/
theorem descriptors_unique (h : (server env).Reachable s) : DescriptorsUnique s := by
  obtain ⟨htab, hloop⟩ := WellBound.of_reaches h
  have hnum := Numbered.of_reaches h
  have hb : ∀ {m id d}, s.stream m id = some d → s.binding m id = some d.fd :=
    fun hd => State.binding_eq_some.mpr ⟨_, hd, rfl⟩
  refine ⟨htab.watched, ?_, ?_, ?_, ?_, ?_⟩
  · intro m id d hd
    obtain ⟨n, hn, -⟩ := htab.owned m id d.fd (hb hd)
    exact Kernel.files_of_sockAt hn
  · intro m id d m' id' d' hd hd' hfd
    exact htab.unique (hb hd) (hfd ▸ hb hd')
  · intro m id hc hnone
    have hbind : s.binding m id = none := by rw [State.binding, hnone]; rfl
    rw [State.closing?] at hc
    split at hc
    · rename_i hl
      obtain ⟨rfl, rfl⟩ := Prod.mk.inj (Option.some.inj hc)
      rw [hl] at hloop
      exact (hloop.2.2 _).mp (List.mem_cons_self ..) hbind
    · rename_i hl
      obtain ⟨rfl, rfl⟩ := Prod.mk.inj (Option.some.inj hc)
      rw [hl] at hloop
      exact absurd (hbind.symm.trans hloop) (by simp)
    · cases hc
  · rw [← State.filterMap_closureLog fun e he => (Event.serial_of_not_closure he).1]
    exact (List.nodup_append.mp hnum.data).1
  · rw [← State.filterMap_closureLog fun e he => (Event.serial_of_not_closure he).2]
    exact (List.nodup_append.mp hnum.close).1

/-- Two clients with a stream each, bytes and then EOF from the target of the first. -/
def twoClients : List Label :=
  [.loop .opened, .loop .opened] ++ connectLabels 0 1 7 ++ connectLabels 1 1 8 ++
    passLabels 7 [.bytes [104, 105], .again] ++ passLabels 7 [.eof] ++
    [.loop .deferred, .loop .resume, .loop .resume, .loop .resume, .loop .resume, .loop .resume,
      .loop .deferred]

/-- In the middle of the second closure, about to close the stream. -/
theorem descriptors_unique_twoClients :
    DescriptorsUnique ((server {}).final (fun _ _ => True) twoClients) :=
  descriptors_unique (System.reaches_final _ _ _ (by decide +kernel))

end Woeful
