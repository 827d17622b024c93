import Woeful.Bindings

/-!
# The thread pool

`PoolMove` says what a step does to the pool: `handle_data` appends a task, a
worker moves a task on, and nothing else touches it. A task passes three points,
queued, started and past its lock, and only ever goes forward
(`WorkerMove.mem_waiting`, `WorkerMove.mem_unfinished`).

`LocksHeld` is what `stream_lock` is good for: once a task has it, its stream
stays until the task is done.
-/

namespace Woeful

open Memory Transition

variable {env : Env} {s t : State}

/-! ## The log of the tasks -/

/-- Whether an event is about a write task. -/
def Event.ofTask : Event → Bool
  | .accepted _ => true
  | .began _ _ => true
  | .wrote _ _ _ => true
  | _ => false

/-- What happened to write tasks, in order. -/
def State.uploadLog (s : State) : List Event := s.log.filter Event.ofTask

theorem State.uploadLog_record {e : Event} (h : e.ofTask = true) :
    (s.record e).uploadLog = s.uploadLog ++ [e] := by
  rw [uploadLog, record, List.filter_append, List.filter_singleton, h]
  rfl

theorem State.mem_uploadLog_record {e e' : Event} (h : e.ofTask = true)
    (he : e' ∈ (s.record e).uploadLog) : e' ∈ s.uploadLog ∨ e' = e := by
  rw [uploadLog_record h] at he
  exact (List.mem_append.mp he).imp_right List.mem_singleton.mp

/-- The log grew, if at all, by events that are not about write tasks. -/
def SameUploads (s t : State) : Prop := t.uploadLog = s.uploadLog

namespace SameUploads

variable {u : State} {m : Nat}

theorem of_log (h : t.log = s.log) : SameUploads s t := by
  rw [SameUploads, State.uploadLog, State.uploadLog, h]

theorem trans (h : SameUploads s t) (h' : SameUploads t u) : SameUploads s u :=
  Eq.trans h' h

theorem record {e : Event} (h : e.ofTask = false) : SameUploads s (s.record e) := by
  rw [SameUploads, State.uploadLog, State.record, List.filter_append, List.filter_singleton, h]
  exact List.append_nil _

theorem foldl {A : Type} {f : State → A → State} (hf : ∀ s a, SameUploads s (f s a)) :
    ∀ (l : List A) (s : State), SameUploads s (l.foldl f s) := by
  intro l
  induction l with
  | nil => exact fun _ => of_log rfl
  | cons a l ih => exact fun s => (hf s a).trans (ih _)

theorem send (packet : WispPacket) (origin : Origin) :
    SameUploads s (s.send env m packet origin) :=
  record rfl

theorem refuse (c : ConnectCall) : SameUploads s (s.refuse env c) :=
  SameUploads.record (s := { s with loop := .idle }) rfl

theorem closeFd (fd : Fd) : SameUploads s (s.closeFd fd) :=
  SameUploads.record (s := { s with kernel := s.kernel.close fd }) rfl

theorem updateStreams : SameUploads s (s.updateStreams env m) := by
  rw [State.updateStreams]
  split
  · exact of_log rfl
  · split
    · exact of_log rfl
    · exact foldl (fun s _ => SameUploads.send (s := s) _ _) _ s

theorem deliver (p : Pass) (h : Nat × UInt32) : SameUploads s (s.deliver env p h) := by
  rw [State.deliver]
  split <;> exact SameUploads.send (s := s) _ _

theorem closeStream {id : UInt32} {removePoll : Bool} {origin : Origin} :
    SameUploads s (s.closeStream env m id removePoll origin) := by
  cases removePoll <;> exact (SameUploads.record rfl).trans (SameUploads.record rfl)

end SameUploads

/-! ## What a step does to the pool -/

/-- The task that `handle_data` submits for `packet`. -/
def State.taskFor (s : State) (m : Nat) (packet : WispPacket) : WriteTask :=
  ⟨m, packet, s.boundSock m packet.streamId⟩

/-- What a step does to the pool. -/
inductive PoolMove (env : Env) (s t : State) : Label → Prop where
  /-- nothing -/
  | same {l : Label} : t.pool = s.pool → t.uploadLog = s.uploadLog → PoolMove env s t l
  /-- `handle_data` accepts a payload -/
  | submit {l : Label} {m : Nat} {packet : WispPacket} :
      s.stream m packet.streamId ≠ none → SameTable s t →
      t.pool = { s.pool with queue := s.pool.queue ++ [s.taskFor m packet] } →
      t.uploadLog = s.uploadLog ++ [.accepted (s.taskFor m packet)] → PoolMove env s t l
  /-- a worker moves -/
  | worker {l : WorkerLabel} : WorkerMove env s l t → PoolMove env s t (.worker l)

theorem State.handleData_pool {m : Nat} {packet : WispPacket} {d : SocketStreamData}
    (hd : s.stream m packet.streamId = some d) :
    (s.handleData env m packet).2.pool =
        { s.pool with queue := s.pool.queue ++ [s.taskFor m packet] } ∧
      (s.handleData env m packet).2.uploadLog =
        s.uploadLog ++ [.accepted (s.taskFor m packet)] := by
  have hsubmit : (s.submitTask (s.taskFor m packet)).uploadLog =
      s.uploadLog ++ [.accepted (s.taskFor m packet)] :=
    uploadLog_record rfl
  rw [handleData, hd]
  dsimp only
  split
  · split
    · refine ⟨rfl, ?_⟩
      exact Eq.trans (SameUploads.record (s := s.submitTask (s.taskFor m packet)) rfl) hsubmit
    · exact ⟨rfl, hsubmit⟩
  · exact ⟨rfl, hsubmit⟩

/-- The loop thread leaves the pool alone, or takes a DATA for a stream that is there. -/
theorem LoopMove.upload {l : LoopLabel} (hs : LoopMove env s l t) :
    (t.pool = s.pool ∧ SameUploads s t) ∨ ∃ m view packet d, l = .message m view ∧
      s.loop = .idle ∧ WispPacket.parse view (UInt64.ofNat view.length) = .ok packet ∧
      packet.packetType = packetData ∧ s.stream m packet.streamId = some d ∧
      t = ((s.endHandshake m).handleData env m packet).2 := by
  cases hs with
  | opened hi => exact Or.inl ⟨rfl, SameUploads.send (s := { s with id := _, managers := _ }) _ _⟩
  | info hi hm hp hty => exact Or.inl ⟨rfl, rfl⟩
  | other hi hm hp hc hd => exact Or.inl ⟨rfl, rfl⟩
  | connect hi hm hp hty hcm hid => exact Or.inl ⟨rfl, rfl⟩
  | refuse hi hm hp hty hcm hid => exact Or.inl ⟨rfl, SameUploads.refuse (s := s.endHandshake _) _⟩
  | @data m view packet hi hm hp hty =>
    cases hd : s.stream m packet.streamId with
    | none =>
      have hnone : (s.endHandshake m).stream m packet.streamId = none := by
        simp [hd]
      rw [State.handleData, hnone]
      exact Or.inl ⟨rfl, rfl⟩
    | some d => exact Or.inr ⟨m, view, packet, d, rfl, hi, hp, hty, hd, rfl⟩
  | @drain m hi hm =>
    have hlog : SameUploads s (s.drain env m) :=
      SameUploads.updateStreams (s := s.setBackpressure m false)
    rw [State.drain_frame] at hlog ⊢
    exact Or.inl ⟨rfl, hlog⟩
  | close hi hm => exact Or.inl ⟨rfl, rfl⟩
  | @deferred p rest hi hd =>
    have hlog : SameUploads s ((s.holders p.fd).foldl (fun s h => s.deliver env p h)
        { s with deferred := rest }) :=
      SameUploads.foldl (fun s h => SameUploads.deliver p h) _ { s with deferred := rest }
    rw [State.foldl_deliver_frame] at hlog ⊢
    exact Or.inl ⟨rfl, hlog⟩
  | socketFail hl => exact Or.inl ⟨rfl, SameUploads.refuse _⟩
  | socket hnone hl => exact Or.inl ⟨rfl, rfl⟩
  | connected hl => exact Or.inl ⟨rfl, rfl⟩
  | connectFail hl =>
    exact Or.inl ⟨rfl, (SameUploads.closeFd _).trans (SameUploads.refuse (s := s.closeFd _) _)⟩
  | pushFd hl => exact Or.inl ⟨rfl, rfl⟩
  | insert hl hfree => exact Or.inl ⟨rfl, SameUploads.record (s := s.modifyManager _ _) rfl⟩
  | listIds hl hfree => exact Or.inl ⟨rfl, rfl⟩
  | @closeNext m id ids hl hfree =>
    have hlog : SameUploads s (s.closeStream env m id true .server) := SameUploads.closeStream
    exact Or.inl ⟨rfl, hlog⟩
  | destruct hl => exact Or.inl ⟨rfl, rfl⟩
  | @closeFound p m id hl hfree =>
    have hlog : SameUploads s
        (s.closeStream env m id false (.closure p (s.boundSock m id))) := SameUploads.closeStream
    exact Or.inl ⟨rfl, hlog⟩
  | decrement hl => exact Or.inl ⟨rfl, rfl⟩
  | check hl => exact Or.inl ⟨rfl, rfl⟩
  | sweepDone hl => exact Or.inl ⟨rfl, rfl⟩
  | @sweep m ms hl =>
    have hlog : SameUploads s (s.updateStreams env m) := SameUploads.updateStreams
    rw [State.updateStreams_frame] at hlog ⊢
    exact Or.inl ⟨rfl, hlog⟩

theorem LoopMove.poolMove {l : LoopLabel} (hs : LoopMove env s l t) :
    PoolMove env s t (.loop l) := by
  rcases hs.upload with ⟨hpool, hlog⟩ | ⟨m, view, packet, d, rfl, -, -, -, hd, rfl⟩
  · exact .same hpool hlog
  · have hsame := SameTable.endHandshake s m
    have htask : (s.endHandshake m).taskFor m packet = s.taskFor m packet := by
      rw [State.taskFor, State.taskFor, hsame.boundSock]
    have hd' : (s.endHandshake m).stream m packet.streamId = some d := by
      simp [hd]
    obtain ⟨hpool, hlog⟩ := @State.handleData_pool env _ _ _ _ hd'
    rw [htask] at hpool hlog
    exact .submit (by rw [hd]; simp) (hsame.trans (.handleData _ _ _)) hpool hlog

/-- **What a step does to the pool.** -/
theorem step_poolMove {l : Label} (hs : s.step env l = some t) : PoolMove env s t l := by
  cases l with
  | loop l => exact (loopStep_cases hs).poolMove
  | watch l =>
    refine .same (watchStep_cases hs).pool ?_
    cases watchStep_cases hs with
    | read hp hr => exact SameUploads.record (s := s.setPhase _) rfl
    | _ => rfl
  | worker l => exact .worker (workerStep_cases hs)
  | rehash m streams =>
    rw [(State.rehash_frame hs).2]
    exact .same rfl rfl
  | rehashSockets ms =>
    obtain ⟨-, -, rfl⟩ := State.rehashSockets_frame hs
    exact .same rfl rfl

/-! ## The tasks of a pool -/

/-- The stream a task is for. -/
def WriteTask.stream (t : WriteTask) : Nat × UInt32 := (t.manager, t.packet.streamId)

theorem ThreadPool.mem_waiting {pool : ThreadPool} {t : WriteTask} :
    t ∈ pool.waiting ↔ ⟨t, .started⟩ ∈ pool.running ∨ t ∈ pool.queue := by
  rw [waiting, List.mem_append, List.mem_map]
  refine or_congr_left ⟨?_, fun h => ⟨⟨t, .started⟩, List.mem_filter.mpr ⟨h, rfl⟩, rfl⟩⟩
  rintro ⟨⟨t', phase⟩, hmem, rfl⟩
  obtain ⟨hmem, hphase⟩ := List.mem_filter.mp hmem
  obtain rfl : phase = .started := of_decide_eq_true hphase
  exact hmem

theorem ThreadPool.mem_unfinished {pool : ThreadPool} {t : WriteTask} :
    t ∈ pool.unfinished ↔ (∃ phase, ⟨t, phase⟩ ∈ pool.running) ∨ t ∈ pool.queue := by
  rw [unfinished, List.mem_append, List.mem_map]
  refine or_congr_left ⟨?_, fun ⟨phase, h⟩ => ⟨⟨t, phase⟩, h, rfl⟩⟩
  rintro ⟨⟨t', phase⟩, hmem, rfl⟩
  exact ⟨phase, hmem⟩

/-- A task that is submitted is the last of the unfinished. -/
theorem ThreadPool.unfinished_submit (pool : ThreadPool) (task : WriteTask) :
    ({ pool with queue := pool.queue ++ [task] } : ThreadPool).unfinished =
      pool.unfinished ++ [task] := by
  rw [unfinished, unfinished, List.append_assoc]

/-- A worker that goes on keeps its task. -/
theorem ThreadPool.map_task_set {pool : ThreadPool} {i : Nat} {w : Worker}
    (h : pool.running[i]? = some w) (phase : TaskPhase) :
    (pool.running.set i ⟨w.task, phase⟩).map (·.task) = pool.running.map (·.task) := by
  have hi := (List.getElem?_eq_some_iff.mp h).1
  refine List.ext_getElem? fun j => ?_
  rw [List.getElem?_map, List.getElem?_map, List.getElem?_set]
  split
  · rename_i hj
    subst hj
    rw [h]
    rfl
  · rfl

/-- A worker that is busy after a step was busy with the same task before, or has
just dequeued it. Past the lock, its stream exists or it had the lock already. -/
theorem WorkerMove.mem_running {l : WorkerLabel} (hs : WorkerMove env s l t) {w : Worker}
    (hw : w ∈ t.pool.running) :
    w ∈ s.pool.running ∨ (w.phase = .started ∧ w.task ∈ s.pool.queue) ∨
      (w.phase ≠ .started ∧ ∃ phase, ⟨w.task, phase⟩ ∈ s.pool.running ∧
        (phase ≠ .started ∨ s.stream w.task.manager w.task.packet.streamId ≠ none)) := by
  cases hs with
  | @dequeue t queue hq hlt =>
    rcases List.mem_append.mp hw with hw | hw
    · exact Or.inl hw
    · obtain rfl := List.mem_singleton.mp hw
      exact Or.inr (Or.inl ⟨rfl, by rw [hq]; exact List.mem_cons_self ..⟩)
  | begin hi hd =>
    rcases List.mem_or_eq_of_mem_set hw with hw | rfl
    · exact Or.inl hw
    · exact Or.inr (Or.inr ⟨nofun, _, List.mem_of_getElem? hi, Or.inr (by simp [hd])⟩)
  | fault hi hd => exact Or.inl (List.mem_of_mem_eraseIdx hw)
  | poll hi =>
    rcases List.mem_or_eq_of_mem_set hw with hw | rfl
    · exact Or.inl hw
    · exact Or.inr (Or.inr ⟨nofun, _, List.mem_of_getElem? hi, Or.inl nofun⟩)
  | pollFail hi => exact Or.inl (List.mem_of_mem_eraseIdx hw)
  | write hi hn => exact Or.inl (List.mem_of_mem_eraseIdx hw)
  | again hi =>
    rcases List.mem_or_eq_of_mem_set hw with hw | rfl
    · exact Or.inl hw
    · exact Or.inr (Or.inr ⟨nofun, _, List.mem_of_getElem? hi, Or.inl nofun⟩)
  | writeFail hi => exact Or.inl (List.mem_of_mem_eraseIdx hw)

theorem WorkerMove.mem_queue {l : WorkerLabel} (hs : WorkerMove env s l t) {task : WriteTask}
    (h : task ∈ t.pool.queue) : task ∈ s.pool.queue := by
  cases hs with
  | dequeue hq hlt =>
    rw [hq]
    exact List.mem_cons_of_mem _ h
  | _ => exact h

/-- A task that has not begun had not begun before. -/
theorem WorkerMove.mem_waiting {l : WorkerLabel} (hs : WorkerMove env s l t) {task : WriteTask}
    (h : task ∈ t.pool.waiting) : task ∈ s.pool.waiting := by
  refine ThreadPool.mem_waiting.mpr ?_
  rcases ThreadPool.mem_waiting.mp h with h | h
  · rcases hs.mem_running h with h | ⟨-, h⟩ | ⟨h, -⟩
    · exact Or.inl h
    · exact Or.inr h
    · exact absurd rfl h
  · exact Or.inr (hs.mem_queue h)

/-- A worker finishes a task, or leaves the unfinished tasks as they are. -/
theorem WorkerMove.unfinished_sublist {l : WorkerLabel} (hs : WorkerMove env s l t) :
    t.pool.unfinished.Sublist s.pool.unfinished := by
  have hset : ∀ {i : Nat} {w : Worker} (phase : TaskPhase), s.pool.running[i]? = some w →
      ((s.pool.running.set i ⟨w.task, phase⟩).map (·.task) ++ s.pool.queue).Sublist
        s.pool.unfinished := by
    intro i w phase hi
    rw [ThreadPool.unfinished, ThreadPool.map_task_set hi]
  have herase : ∀ i : Nat, ((s.pool.running.eraseIdx i).map (·.task) ++ s.pool.queue).Sublist
      s.pool.unfinished :=
    fun i => ((List.eraseIdx_sublist ..).map _).append (List.Sublist.refl _)
  cases hs with
  | dequeue hq hlt =>
    change ((s.pool.running ++ [_]).map _ ++ _).Sublist (s.pool.running.map _ ++ s.pool.queue)
    rw [hq, List.map_append, List.append_assoc]
    exact List.Sublist.refl _
  | begin hi hd => exact hset .locked hi
  | poll hi => exact hset .polled hi
  | again hi => exact hset .locked hi
  | fault hi hd => exact herase _
  | pollFail hi => exact herase _
  | write hi hn => exact herase _
  | writeFail hi => exact herase _

/-- A task that is not finished was not finished before. -/
theorem WorkerMove.mem_unfinished {l : WorkerLabel} (hs : WorkerMove env s l t)
    {task : WriteTask} (h : task ∈ t.pool.unfinished) : task ∈ s.pool.unfinished :=
  hs.unfinished_sublist.subset h

/-! ## What the lock is good for -/

/-- The stream of a task that has taken `stream_lock` exists. -/
def LocksHeld (s : State) : Prop :=
  ∀ w ∈ s.pool.running, w.phase ≠ .started →
    s.binding w.task.manager w.task.packet.streamId ≠ none

/-- Whoever holds the lock keeps the loop thread from taking it. -/
theorem State.lockFree_started {m : Nat} (h : s.lockFree m = true) {w : Worker}
    (hw : w ∈ s.pool.running) (hm : w.task.manager = m) : w.phase = .started := by
  have := List.all_eq_true.mp h w hw
  rcases (Bool.or_eq_true _ _).mp this with hphase | hne
  · exact of_decide_eq_true hphase
  · exact absurd hm (of_decide_eq_true hne)

/-- A step unbinds a stream only in `close_stream`. -/
theorem TableMove.binding_ne_none {l : Label} (hs : TableMove s t l) {m : Nat} {id : UInt32}
    (hb : s.binding m id ≠ none) : t.binding m id ≠ none ∨
      (l = .loop .resume ∧ s.closing? = some (m, id) ∧ s.lockFree m = true) := by
  cases hs with
  | same _ _ hbind => exact Or.inl (hbind ▸ hb)
  | socket _ _ _ _ hbind => exact Or.inl (hbind ▸ hb)
  | abandon _ _ _ hbind => exact Or.inl (hbind ▸ hb)
  | insert _ _ _ hbind =>
    rw [hbind]
    split
    · exact Or.inl nofun
    · exact Or.inl hb
  | @close m' id' fd hc _ hfree _ _ _ hbind =>
    rw [hbind]
    split
    · rename_i he
      obtain ⟨rfl, rfl⟩ := he
      exact Or.inr ⟨rfl, hc, hfree⟩
    · exact Or.inl hb

/-- **The lock protects the stream**, whatever the loop thread does. -/
theorem LocksHeld.step {l : Label} (hs : s.step env l = some t) (hw : WellBound s)
    (h : LocksHeld s) : LocksHeld t := by
  have hkeep : ∀ w ∈ s.pool.running, w.phase ≠ .started →
      t.binding w.task.manager w.task.packet.streamId ≠ none := by
    intro w hmem hphase
    rcases (step_tableMove hs hw).binding_ne_none (h w hmem hphase) with hb | ⟨-, -, hfree⟩
    · exact hb
    · exact absurd (State.lockFree_started hfree hmem rfl) hphase
  cases step_poolMove hs with
  | same hpool _ =>
    rw [LocksHeld, hpool]
    exact hkeep
  | submit hd hsame hpool _ =>
    rw [LocksHeld, hpool]
    exact hkeep
  | worker hmove =>
    intro w hmem hphase
    rcases hmove.mem_running hmem with hold | ⟨hstarted, -⟩ | ⟨-, phase, hold, hpast⟩
    · exact hkeep w hold hphase
    · exact absurd hstarted hphase
    · rcases hpast with hpast | hstream
      · exact hkeep ⟨w.task, phase⟩ hold hpast
      · rw [hmove.sameTable.binding]
        exact State.binding_ne_none.mpr hstream

theorem LocksHeld.initial (env : Env) : LocksHeld (State.initial env) :=
  fun _ hw => nomatch hw

theorem LocksHeld.of_reaches {guard : State → Label → Prop} (h : (server env).Reaches guard s) :
    LocksHeld s :=
  h.invariant_of (fun _ => WellBound.of_reaches) (.initial env)
    fun _ _ _ _ hst hw hl => hl.step hst hw

end Woeful
