import Woeful.Lib.Threads
import Woeful.Pool

/-!
# Every upload once

A payload that `handle_data` accepts becomes a task. However many workers there are, and
whatever becomes of the stream in the meantime, the task is not lost while it waits and is not
run twice: at every moment it is waiting, or it took `stream_lock` once (`TaskOnce.begun`). It
writes at most once, and not after it is done (`TaskOnce.written`), and what it writes is a
prefix of its payload (`TaskOnce.payload`).
-/

namespace Woeful

open Memory Transition Threads

variable {env : Env} {s t : State} {task : WriteTask}

/-- The task takes `stream_lock`. -/
def Event.begins (task : WriteTask) : Event → Bool
  | .began task' _ => task' = task
  | _ => false

/-- The task writes. -/
def Event.writes (task : WriteTask) : Event → Bool
  | .wrote task' _ _ => task' = task
  | _ => false

/-- A worker that has still to begin with the task. -/
def Worker.awaits (task : WriteTask) (w : Worker) : Nat :=
  if w.task = task ∧ w.phase = .started then 1 else 0

/-- A worker that is at the task. -/
def Worker.handles (task : WriteTask) (w : Worker) : Nat := if w.task = task then 1 else 0

namespace ThreadPool

variable {pool : ThreadPool}

theorem count_map_task (ws : List Worker) :
    (ws.map (·.task)).count task = total (Worker.handles task) ws := by
  induction ws with
  | nil => rfl
  | cons w ws ih =>
    rw [List.map_cons, List.count_cons, ih, total_cons, Nat.add_comm, Worker.handles]
    simp only [beq_iff_eq]

theorem count_map_started (ws : List Worker) :
    ((ws.filter (·.phase = .started)).map (·.task)).count task =
      total (Worker.awaits task) ws := by
  induction ws with
  | nil => rfl
  | cons w ws ih =>
    rw [total_cons, Worker.awaits]
    by_cases h : w.phase = .started
    · rw [List.filter_cons_of_pos (by simpa using h), List.map_cons, List.count_cons, ih,
        Nat.add_comm]
      simp only [beq_iff_eq, h, and_true]
    · rw [List.filter_cons_of_neg (by simpa using h), ih, if_neg (fun hw => h hw.2), Nat.zero_add]

/-- The tasks that have not begun, by where they are. -/
theorem count_waiting : pool.waiting.count task =
    total (Worker.awaits task) pool.running + pool.queue.count task := by
  rw [waiting, List.count_append, count_map_started]

/-- The tasks that are not finished, by where they are. -/
theorem count_unfinished : pool.unfinished.count task =
    total (Worker.handles task) pool.running + pool.queue.count task := by
  rw [unfinished, List.count_append, count_map_task]

/-- A worker goes on. -/
theorem count_set {i : Nat} {w w' : Worker} (h : pool.running[i]? = some w) :
    ({ pool with running := pool.running.set i w' } : ThreadPool).waiting.count task +
        w.awaits task = pool.waiting.count task + w'.awaits task ∧
      ({ pool with running := pool.running.set i w' } : ThreadPool).unfinished.count task +
        w.handles task = pool.unfinished.count task + w'.handles task := by
  have hawaits := total_set (Worker.awaits task) (b := w') h
  have hhandles := total_set (Worker.handles task) (b := w') h
  simp only [count_waiting, count_unfinished]
  omega

/-- A worker is done, or lost. -/
theorem count_eraseIdx {i lost : Nat} {w : Worker} (h : pool.running[i]? = some w) :
    (⟨pool.queue, pool.running.eraseIdx i, lost⟩ : ThreadPool).waiting.count task +
        w.awaits task = pool.waiting.count task ∧
      (⟨pool.queue, pool.running.eraseIdx i, lost⟩ : ThreadPool).unfinished.count task +
        w.handles task = pool.unfinished.count task := by
  have hawaits := total_eraseIdx (Worker.awaits task) h
  have hhandles := total_eraseIdx (Worker.handles task) h
  simp only [count_waiting, count_unfinished]
  omega

/-- A worker takes a task: it is where it was among those that wait. -/
theorem waiting_dequeue {task : WriteTask} {queue : List WriteTask}
    (h : pool.queue = task :: queue) :
    (⟨queue, pool.running ++ [⟨task, .started⟩], pool.lost⟩ : ThreadPool).waiting =
        pool.waiting ∧
      (⟨queue, pool.running ++ [⟨task, .started⟩], pool.lost⟩ : ThreadPool).unfinished =
        pool.unfinished := by
  simp [waiting, unfinished, h]

end ThreadPool

/-- The task was begun as often as it was submitted, but for when it is waiting; and it was not
written oftener than it is done. -/
structure TaskOnce (task : WriteTask) (s : State) : Prop where
  /-- it is waiting, or has begun -/
  begun : s.uploadLog.count (.accepted task) =
    s.uploadLog.countP (Event.begins task) + s.pool.waiting.count task
  /-- it is written at most once, and is done then -/
  written : s.uploadLog.countP (Event.writes task) + s.pool.unfinished.count task ≤
    s.uploadLog.count (.accepted task)
  /-- what it writes is a prefix of its payload -/
  payload : ∀ sock bytes, .wrote task sock bytes ∈ s.uploadLog → bytes <+: task.packet.data

namespace TaskOnce

/-- What is logged, and what that means for the tasks that wait and those that are not done. -/
theorem of_events {es : List Event} (h : TaskOnce task s) (hlog : t.uploadLog = s.uploadLog ++ es)
    (hwaiting : es.count (.accepted task) + s.pool.waiting.count task =
      es.countP (Event.begins task) + t.pool.waiting.count task)
    (hunfinished : es.countP (Event.writes task) + t.pool.unfinished.count task ≤
      s.pool.unfinished.count task + es.count (.accepted task))
    (hpayload : ∀ sock bytes, .wrote task sock bytes ∈ es → bytes <+: task.packet.data) :
    TaskOnce task t := by
  have hbegun := h.begun
  have hwritten := h.written
  constructor
  · rw [hlog, List.count_append, List.countP_append]
    omega
  · rw [hlog, List.count_append, List.countP_append]
    omega
  · intro sock bytes hmem
    rw [hlog] at hmem
    rcases List.mem_append.mp hmem with hmem | hmem
    · exact h.payload sock bytes hmem
    · exact hpayload sock bytes hmem

/-- Nothing is logged, and the same tasks wait and are not done. -/
theorem of_silent (h : TaskOnce task s) (hlog : t.uploadLog = s.uploadLog)
    (hwaiting : t.pool.waiting = s.pool.waiting)
    (hunfinished : t.pool.unfinished = s.pool.unfinished) : TaskOnce task t := by
  constructor
  · rw [hlog, hwaiting]
    exact h.begun
  · rw [hlog, hunfinished]
    exact h.written
  · rw [hlog]
    exact h.payload

/-- A payload is accepted. -/
theorem submit {task' : WriteTask} (h : TaskOnce task s)
    (hpool : t.pool = { s.pool with queue := s.pool.queue ++ [task'] })
    (hlog : t.uploadLog = s.uploadLog ++ [.accepted task']) : TaskOnce task t := by
  have hcount : [Event.accepted task'].count (.accepted task) = [task'].count task := by
    simp only [List.count_singleton, beq_iff_eq, Event.accepted.injEq]
  have hwaiting : t.pool.waiting = s.pool.waiting ++ [task'] := by
    rw [hpool, ThreadPool.waiting, ThreadPool.waiting, List.append_assoc]
  have hunfinished : t.pool.unfinished = s.pool.unfinished ++ [task'] := by
    rw [hpool, ThreadPool.unfinished_submit]
  refine h.of_events hlog ?_ ?_ fun _ _ hmem => ?_
  · rw [hcount, hwaiting, List.count_append]
    change _ = 0 + _
    omega
  · rw [hcount, hunfinished, List.count_append]
    change 0 + _ ≤ _
    omega
  · cases List.mem_singleton.mp hmem

/-- A worker goes on with its task. -/
theorem set {i : Nat} {w w' : Worker} {es : List Event} (h : TaskOnce task s)
    (hi : s.pool.running[i]? = some w)
    (hpool : t.pool = { s.pool with running := s.pool.running.set i w' })
    (hlog : t.uploadLog = s.uploadLog ++ es) (htask : w'.task = w.task)
    (hawaits : w.awaits task = es.countP (Event.begins task) + w'.awaits task)
    (hes : ∀ e ∈ es, e ≠ .accepted task ∧ e.writes task = false) : TaskOnce task t := by
  obtain ⟨hwaiting, hunfinished⟩ := @ThreadPool.count_set task s.pool i w w' hi
  rw [← hpool] at hwaiting hunfinished
  have hhandles : w'.handles task = w.handles task := by
    rw [Worker.handles, Worker.handles, htask]
  have haccepted : es.count (.accepted task) = 0 :=
    List.count_eq_zero.mpr fun hmem => (hes _ hmem).1 rfl
  have hwrites : es.countP (Event.writes task) = 0 :=
    List.countP_eq_zero.mpr fun e he => by rw [(hes e he).2]; exact Bool.false_ne_true
  refine h.of_events hlog ?_ ?_ fun sock bytes hmem => ?_
  · omega
  · omega
  · have hfalse := (hes _ hmem).2
    rw [Event.writes, decide_eq_true rfl] at hfalse
    cases hfalse

/-- A worker is done with its task, or is lost. -/
theorem erase {i lost : Nat} {w : Worker} {es : List Event} (h : TaskOnce task s)
    (hi : s.pool.running[i]? = some w)
    (hpool : t.pool = ⟨s.pool.queue, s.pool.running.eraseIdx i, lost⟩)
    (hlog : t.uploadLog = s.uploadLog ++ es)
    (hawaits : w.awaits task = es.countP (Event.begins task))
    (hhandles : es.countP (Event.writes task) ≤ w.handles task)
    (haccepted : .accepted task ∉ es)
    (hpayload : ∀ sock bytes, .wrote task sock bytes ∈ es → bytes <+: task.packet.data) :
    TaskOnce task t := by
  obtain ⟨hwaiting, hunfinished⟩ := @ThreadPool.count_eraseIdx task s.pool i lost w hi
  rw [← hpool] at hwaiting hunfinished
  have hnone : es.count (.accepted task) = 0 := List.count_eq_zero.mpr haccepted
  refine h.of_events hlog ?_ ?_ hpayload
  · omega
  · omega

theorem worker {l : WorkerLabel} (h : TaskOnce task s) (hs : WorkerMove env s l t) :
    TaskOnce task t := by
  have hnone : ∀ {phase : TaskPhase} (task' : WriteTask), phase ≠ .started →
      Worker.awaits task ⟨task', phase⟩ = 0 :=
    fun _ hphase => if_neg fun hw => hphase hw.2
  cases hs with
  | @dequeue task' queue hq hlt =>
    obtain ⟨hwaiting, hunfinished⟩ := ThreadPool.waiting_dequeue hq
    exact h.of_silent rfl hwaiting hunfinished
  | @begin i task' d hi hd =>
    refine h.set hi rfl (State.uploadLog_record rfl) rfl ?_ fun e he => ?_
    · simp [Worker.awaits, Event.begins]
    · obtain rfl := List.mem_singleton.mp he
      exact ⟨Event.noConfusion, rfl⟩
  | @fault i task' hi hd =>
    refine h.erase hi rfl (State.uploadLog_record rfl) ?_ (Nat.zero_le _) ?_ fun _ _ hmem => ?_
    · simp [Worker.awaits, Event.begins]
    · exact fun hmem => Event.noConfusion (List.mem_singleton.mp hmem)
    · cases List.mem_singleton.mp hmem
  | @poll i task' hi =>
    refine h.set hi rfl (List.append_nil _).symm rfl ?_ fun _ he => ?_
    · rw [hnone task' (by decide), hnone task' (by decide)]
      rfl
    · cases he
  | @pollFail i task' hi =>
    refine h.erase hi rfl (List.append_nil _).symm ?_ (Nat.zero_le _) List.not_mem_nil
      fun _ _ hmem => ?_
    · exact hnone task' (by decide)
    · cases hmem
  | @write i n task' hi hn =>
    refine h.erase hi rfl (State.uploadLog_record rfl) ?_ ?_ ?_ fun sock bytes hmem => ?_
    · exact hnone task' (by decide)
    · simp [Worker.handles, Event.writes]
    · exact fun hmem => Event.noConfusion (List.mem_singleton.mp hmem)
    · obtain ⟨rfl, -, rfl⟩ := Event.wrote.inj (List.mem_singleton.mp hmem)
      exact List.take_prefix _ _
  | @again i task' hi =>
    refine h.set hi rfl (List.append_nil _).symm rfl ?_ fun _ he => ?_
    · rw [hnone task' (by decide), hnone task' (by decide)]
      rfl
    · cases he
  | @writeFail i task' hi =>
    refine h.erase hi rfl (List.append_nil _).symm ?_ (Nat.zero_le _) List.not_mem_nil
      fun _ _ hmem => ?_
    · exact hnone task' (by decide)
    · cases hmem

/-- **Every step keeps the count.** -/
theorem step {l : Label} (h : TaskOnce task s) (hs : s.step env l = some t) : TaskOnce task t := by
  cases step_poolMove hs with
  | same hpool hlog =>
    refine h.of_silent hlog ?_ ?_ <;> rw [hpool]
  | submit hd hsame hpool hlog => exact h.submit hpool hlog
  | worker hmove => exact h.worker hmove

theorem initial (env : Env) (task : WriteTask) : TaskOnce task (State.initial env) where
  begun := rfl
  written := Nat.le_refl _
  payload _ _ hmem := by cases hmem

end TaskOnce

/-- **Every upload once**, in every reachable state: a task that was submitted is waiting or has
taken `stream_lock`, once; it writes at most once, and nothing after it is done; and what it
writes is a prefix of its payload. -/
theorem uploads_once (h : (server env).Reachable s) (task : WriteTask) : TaskOnce task s :=
  h.invariant (TaskOnce.initial env task) fun _ _ _ _ hs hi => hi.step hs

/-- Two payloads are accepted; the kernel takes a part of the first one. -/
def writeAndWait : List Label :=
  [.loop .opened] ++ connectLabels 0 1 7 ++ [dataLabel 0 1 [1, 2, 3], dataLabel 0 1 [4],
    .worker .dequeue, .worker (.begin 0), .worker (.poll 0 true), .worker (.write 0 .again),
    .worker (.poll 0 true), .worker (.write 0 (.accepted 2))]

theorem uploads_once_writeAndWait : TaskOnce ⟨0, ⟨packetData, 1, [1, 2, 3]⟩, some 0⟩
    ((server {}).final (fun _ _ => True) writeAndWait) :=
  uploads_once (System.reaches_final _ _ _ (by decide +kernel)) _

end Woeful
