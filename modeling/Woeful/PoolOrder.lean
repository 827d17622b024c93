import Woeful.PoolSteps

/-!
# The order of the tasks

The tasks are started in the order in which they were put into the queue, each once
(`pool_fifo`), and at any time no more of them are under way than the pool has threads. What
is in the way of that is what a thread does after its wait: it takes the front of the queue
without looking whether there is one, and `tasks_running` is decremented without looking
whether it is positive. The mutex sees to the former (`waited_tasks`), and to the latter that
a thread counts as running from its start on (`tasksRunning_eq`).
-/

namespace Woeful.BS

open Transition Threads

variable {τ : Type} {p q : ThreadPool τ} {l : PoolLabel τ} {n : Nat}

/-! ## What the threads come to -/

namespace WorkerState

/-- Whether a thread has the mutex. -/
def owns : WorkerState τ → Bool
  | testing => true
  | waited => true
  | _ => false

/-- Whether a thread counts as running. -/
def counted : WorkerState τ → Nat
  | head => 1
  | running _ => 1
  | _ => 0

/-- The task a thread is executing. -/
def task? : WorkerState τ → Option τ
  | running task => some task
  | _ => none

theorem counted_le_one (w : WorkerState τ) : w.counted ≤ 1 := by
  cases w with
  | head => exact Nat.le_refl 1
  | running task => exact Nat.le_refl 1
  | _ => exact Nat.zero_le 1

end WorkerState

/-- The tasks that are being executed. -/
def ThreadPool.running (p : ThreadPool τ) : List τ := p.workers.filterMap WorkerState.task?

/-! ## The mutex -/

/-- Who is where the mutex is needed has it. -/
structure Exclusive (p : ThreadPool τ) : Prop where
  /-- the threads -/
  worker : ∀ i w, p.workers[i]? = some w → w.owns = true → p.mutex = some (.worker i)
  /-- the destructor -/
  destructor : p.destructor = .testing → p.mutex = some .destructor

namespace Exclusive

/-- Nobody else has it. -/
theorem eq {i j : Nat} {w w' : WorkerState τ} (h : Exclusive p) (hi : p.workers[i]? = some w)
    (hj : p.workers[j]? = some w') (hw : w.owns = true) (hw' : w'.owns = true) : i = j := by
  have hij := (h.worker i w hi hw).symm.trans (h.worker j w' hj hw')
  exact Holder.worker.inj (Option.some.inj hij)

/-- A thread moves, and has the mutex afterwards. -/
theorem moveOwner {i : Nat} {b : WorkerState τ} (h : Exclusive p)
    (hmutex : p.mutex = none ∨ p.mutex = some (.worker i)) (hq : q.workers = p.workers.set i b)
    (hq' : q.mutex = some (.worker i)) (hd : q.destructor = .testing → p.destructor = .testing) :
    Exclusive q where
  worker j w hj hw := by
    rw [hq] at hj
    rcases getElem?_set_cases hj with ⟨rfl, -⟩ | ⟨hne, hj⟩
    · exact hq'
    · have hown := h.worker j w hj hw
      rcases hmutex with hm | hm
      · rw [hm] at hown
        cases hown
      · rw [hm] at hown
        rw [hq', hown]
  destructor htest := by
    have hown := h.destructor (hd htest)
    rcases hmutex with hm | hm
    · rw [hm] at hown
      cases hown
    · rw [hm] at hown
      cases hown

/-- A thread moves on, without the mutex; if it had it, it has released it. -/
theorem moveOther {i : Nat} {a b : WorkerState τ} (h : Exclusive p) (hi : p.workers[i]? = some a)
    (hb : b.owns = false) (hq : q.workers = p.workers.set i b)
    (hq' : q.mutex = if a.owns then none else p.mutex)
    (hd : q.destructor = .testing → p.destructor = .testing) : Exclusive q where
  worker j w hj hw := by
    rw [hq] at hj
    rcases getElem?_set_cases hj with ⟨rfl, rfl⟩ | ⟨hne, hj⟩
    · rw [hb] at hw
      cases hw
    · cases ha : a.owns with
      | false =>
        rw [hq', ha]
        exact h.worker j w hj hw
      | true => exact absurd (h.eq hj hi hw ha) hne
  destructor htest := by
    have hown := h.destructor (hd htest)
    cases ha : a.owns with
    | false =>
      rw [hq', ha]
      exact hown
    | true =>
      rw [h.worker i a hi ha] at hown
      cases hown

/-- The threads stay where they are, and so does the mutex. -/
theorem keep (h : Exclusive p) (hq : q.workers = p.workers) (hq' : q.mutex = p.mutex)
    (hd : q.destructor = .testing → p.destructor = .testing) : Exclusive q where
  worker j w hj hw := hq' ▸ h.worker j w (hq ▸ hj) hw
  destructor htest := hq' ▸ h.destructor (hd htest)

/-- All that wait are notified. -/
theorem wakeAll (h : Exclusive p) (hq : q.workers = p.workers.map WorkerState.wake)
    (hq' : q.mutex = p.mutex) (hd : q.destructor ≠ .testing) : Exclusive q where
  worker j w hj hw := by
    rw [hq] at hj
    rw [hq']
    refine h.worker j w (getElem?_wake hj ?_) hw
    rintro rfl
    cases hw
  destructor htest := absurd htest hd

/-- The destructor takes the mutex. -/
theorem moveDestructor (h : Exclusive p) (hmutex : p.mutex = none)
    (hq : q.workers = p.workers) (hq' : q.mutex = some .destructor) : Exclusive q where
  worker j w hj hw := by
    have hown := h.worker j w (hq ▸ hj) hw
    rw [hmutex] at hown
    cases hown
  destructor _ := hq'

/-- The destructor releases it. -/
theorem release (h : Exclusive p) (hd : p.destructor = .testing) (hq : q.workers = p.workers)
    (hq' : q.destructor ≠ .testing) : Exclusive q where
  worker j w hj hw := by
    have hown := (h.worker j w (hq ▸ hj) hw).symm.trans (h.destructor hd)
    cases hown
  destructor htest := absurd htest hq'

theorem step (hs : p.step l = some q) (h : Exclusive p) : Exclusive q := by
  cases step_cases hs with
  | detachTask => exact h.keep rfl rfl id
  | emplace => exact h.keep rfl rfl id
  | notify hj hi => exact h.moveOther hi rfl rfl rfl id
  | nobody => exact h.keep rfl rfl id
  | back hm hi => exact h.moveOwner (Or.inl hm) rfl rfl id
  | last hm hi => exact h.moveOwner (Or.inl hm) rfl rfl fun hd => by cases hd
  | relock hm hi => exact h.moveOwner (Or.inl hm) rfl rfl id
  | wait hi => exact h.moveOwner (Or.inr (h.worker _ _ hi rfl)) rfl (h.worker _ _ hi rfl) id
  | sleep hi => exact h.moveOther hi rfl rfl rfl id
  | ret hi => exact h.moveOther hi rfl rfl rfl id
  | take hi => exact h.moveOther hi rfl rfl rfl id
  | finish hi => exact h.moveOther hi rfl rfl rfl id
  | wakeUp hi => exact h.moveOther hi rfl rfl rfl id
  | destroy => exact h.keep rfl rfl fun hd => by cases hd
  | enter hm => exact h.moveDestructor hm rfl rfl
  | reenter hm => exact h.moveDestructor hm rfl rfl
  | waited hd => exact h.release hd rfl fun hd => by cases hd
  | waitSleep hd => exact h.release hd rfl fun hd => by cases hd
  | waitWakeUp => exact h.keep rfl rfl fun hd => by cases hd
  | stopAll => exact h.wakeAll rfl rfl fun hd => by cases hd
  | stop => exact h.keep rfl rfl fun hd => by cases hd
  | join => exact h.keep rfl rfl fun hd => by cases hd

theorem create (n : Nat) : Exclusive (ThreadPool.create n : ThreadPool τ) where
  worker i w hi hw := by
    obtain rfl := List.eq_of_mem_replicate (List.mem_of_getElem? hi)
    cases hw
  destructor h := by cases h

end Exclusive

/-! ## The counter -/

/-- The counter is right, and a thread past its wait has a task to take. -/
structure Counted (p : ThreadPool τ) : Prop where
  /-- `tasks_running` counts the threads that have a task, and those that are not back -/
  tasksRunning_eq : p.tasksRunning = total WorkerState.counted p.workers
  /-- the queue of a thread past its wait is not empty -/
  waited_tasks : ∀ i : Nat, p.workers[i]? = some .waited → i ∉ p.stops → p.tasks ≠ []

namespace Counted

/-- A thread that is not back counts. -/
theorem pos {i : Nat} {w : WorkerState τ} (h : Counted p) (hi : p.workers[i]? = some w)
    (hw : w.counted = 1) : 0 < p.tasksRunning := by
  have hle := le_total WorkerState.counted hi
  rw [h.tasksRunning_eq]
  omega

/-- A thread moves, and the counter with it; it does not leave its wait. -/
theorem move {i : Nat} {a b : WorkerState τ} (h : Counted p) (hi : p.workers[i]? = some a)
    (hq : q.workers = p.workers.set i b)
    (hcount : q.tasksRunning + a.counted = p.tasksRunning + b.counted)
    (hb : b = .waited → i ∉ q.stops → q.tasks ≠ [])
    (hrest : ∀ j : Nat, j ≠ i → p.workers[j]? = some .waited → j ∉ q.stops → q.tasks ≠ []) :
    Counted q where
  tasksRunning_eq := by
    have hset := total_set WorkerState.counted (b := b) hi
    have heq := h.tasksRunning_eq
    rw [hq]
    omega
  waited_tasks j hj hstop := by
    rw [hq] at hj
    rcases getElem?_set_cases hj with ⟨rfl, hb'⟩ | ⟨hne, hj⟩
    · exact hb hb'.symm hstop
    · exact hrest j hne hj hstop

/-- No thread moves. -/
theorem keep (h : Counted p) (hq : q.workers = p.workers) (hcount : q.tasksRunning = p.tasksRunning)
    (hstops : ∀ i ∈ p.stops, i ∈ q.stops) (htasks : p.tasks ≠ [] → q.tasks ≠ []) : Counted q where
  tasksRunning_eq := by rw [hq, hcount, h.tasksRunning_eq]
  waited_tasks i hi hstop :=
    htasks (h.waited_tasks i (hq ▸ hi) fun hmem => hstop (hstops i hmem))

theorem step (hs : p.step l = some q) (he : Exclusive p) (h : Counted p) : Counted q := by
  have hother : ∀ {i j : Nat} {a : WorkerState τ}, p.workers[i]? = some a → a.owns = true →
      j ≠ i → p.workers[j]? = some .waited → False :=
    fun hi ha hne hj => hne (he.eq hj hi rfl ha)
  have hfree : p.mutex = none → ∀ j : Nat, p.workers[j]? = some .waited → False := by
    intro hm j hj
    have hown := he.worker j _ hj rfl
    rw [hm] at hown
    cases hown
  cases step_cases hs with
  | detachTask => exact h.keep rfl rfl (fun _ hi => hi) id
  | emplace =>
    refine h.keep rfl rfl (fun _ hi => hi) fun _ => ?_
    exact List.append_ne_nil_of_right_ne_nil _ (List.cons_ne_nil _ _)
  | notify hj hi =>
    exact h.move hi rfl rfl (fun hb => nomatch hb) fun j _ hj => h.waited_tasks j hj
  | nobody => exact h.keep rfl rfl (fun _ hi => hi) id
  | @back i hm hi =>
    have hpos := h.pos hi rfl
    refine h.move hi rfl ?_ (fun hb => nomatch hb) fun j _ hj => absurd hj (hfree hm j)
    exact Nat.sub_add_cancel hpos
  | @last i hm hi =>
    have hpos := h.pos hi rfl
    refine h.move hi rfl ?_ (fun hb => nomatch hb) fun j _ hj => absurd hj (hfree hm j)
    exact Nat.sub_add_cancel hpos
  | relock hm hi =>
    exact h.move hi rfl rfl (fun hb => nomatch hb) fun j _ hj => absurd hj (hfree hm j)
  | wait hi hgo =>
    refine h.move hi rfl rfl (fun _ hstop => hgo.resolve_left hstop) fun j hne hj => ?_
    exact (hother hi rfl hne hj).elim
  | sleep hi =>
    exact h.move hi rfl rfl (fun hb => nomatch hb) fun j hne hj => (hother hi rfl hne hj).elim
  | ret hi =>
    exact h.move hi rfl rfl (fun hb => nomatch hb) fun j hne hj => (hother hi rfl hne hj).elim
  | take hi =>
    exact h.move hi rfl rfl (fun hb => nomatch hb) fun j hne hj => (hother hi rfl hne hj).elim
  | finish hi =>
    exact h.move hi rfl rfl (fun hb => nomatch hb) fun j _ hj => h.waited_tasks j hj
  | wakeUp hi =>
    exact h.move hi rfl rfl (fun hb => nomatch hb) fun j _ hj => h.waited_tasks j hj
  | stopAll =>
    refine ⟨h.tasksRunning_eq.trans (total_map_of_eq fun w => by cases w <;> rfl).symm, ?_⟩
    intro j hj hstop
    refine h.waited_tasks j (getElem?_wake hj nofun) fun hmem => ?_
    exact hstop (List.mem_cons_of_mem _ hmem)
  | stop => exact h.keep rfl rfl (fun _ hi => List.mem_cons_of_mem _ hi) id
  | _ => exact h.keep rfl rfl (fun _ hi => hi) id

theorem create (n : Nat) : Counted (ThreadPool.create n : ThreadPool τ) where
  tasksRunning_eq := by
    simp [ThreadPool.create, WorkerState.counted]
  waited_tasks i hi := by
    have hw := List.eq_of_mem_replicate (List.mem_of_getElem? hi)
    cases hw

end Counted

/-! ## The queue -/

/-- The tasks go through the queue in order. -/
structure Queued (p : ThreadPool τ) : Prop where
  /-- what was started came first -/
  fifo : p.started ++ p.tasks = p.submitted
  /-- it has returned, or is being executed -/
  once : p.started.Perm (p.finished ++ p.running)

namespace Queued

/-- A thread moves that has no task, before and after. -/
theorem keep {i : Nat} {a b : WorkerState τ} (h : Queued p) (hi : p.workers[i]? = some a)
    (ha : a.task? = none) (hb : b.task? = none) (hq : q.workers = p.workers.set i b)
    (hstarted : q.started = p.started) (htasks : q.tasks = p.tasks)
    (hsubmitted : q.submitted = p.submitted) (hfinished : q.finished = p.finished) : Queued q where
  fifo := by rw [hstarted, htasks, hsubmitted, h.fifo]
  once := by
    have hset := filterMap_set WorkerState.task? (b := b) hi
    rw [ha, hb, Option.toList_none, List.append_nil, List.append_nil] at hset
    rw [hstarted, hfinished, ThreadPool.running, hq]
    exact h.once.trans (List.Perm.append_left _ hset.symm)

theorem step (hs : p.step l = some q) (h : Queued p) : Queued q := by
  cases step_cases hs with
  | emplace => exact ⟨by rw [← List.append_assoc, h.fifo], h.once⟩
  | notify hj hi => exact h.keep hi rfl rfl rfl rfl rfl rfl rfl
  | back hm hi => exact h.keep hi rfl rfl rfl rfl rfl rfl rfl
  | last hm hi => exact h.keep hi rfl rfl rfl rfl rfl rfl rfl
  | relock hm hi => exact h.keep hi rfl rfl rfl rfl rfl rfl rfl
  | wait hi => exact h.keep hi rfl rfl rfl rfl rfl rfl rfl
  | sleep hi => exact h.keep hi rfl rfl rfl rfl rfl rfl rfl
  | ret hi => exact h.keep hi rfl rfl rfl rfl rfl rfl rfl
  | @take i task tasks hi hstop htasks =>
    refine ⟨?_, ?_⟩
    · rw [← h.fifo, htasks, List.append_assoc]
      rfl
    · have hset := filterMap_set WorkerState.task? (b := .running task) hi
      simp only [WorkerState.task?, Option.toList_none, Option.toList_some, List.append_nil] at hset
      refine (h.once.append_right [task]).trans ?_
      rw [List.append_assoc]
      exact List.Perm.append_left _ hset.symm
  | @finish i task hi =>
    refine ⟨h.fifo, ?_⟩
    have hset := filterMap_set WorkerState.task? (b := .head) hi
    simp only [WorkerState.task?, Option.toList_none, Option.toList_some, List.append_nil] at hset
    refine h.once.trans ?_
    rw [List.append_assoc]
    refine List.Perm.append_left _ (hset.symm.trans ?_)
    exact List.perm_append_comm
  | wakeUp hi => exact h.keep hi rfl rfl rfl rfl rfl rfl rfl
  | stopAll =>
    have hrunning : (p.workers.map WorkerState.wake).filterMap WorkerState.task? = p.running := by
      rw [List.filterMap_map, ThreadPool.running]
      exact List.filterMap_congr fun w _ => by cases w <;> rfl
    refine ⟨h.fifo, ?_⟩
    rw [ThreadPool.running, hrunning]
    exact h.once
  | _ => exact ⟨h.fifo, h.once⟩

theorem create (n : Nat) : Queued (ThreadPool.create n : ThreadPool τ) where
  fifo := rfl
  once := by
    have hnone : (ThreadPool.create n : ThreadPool τ).running = [] :=
      List.filterMap_eq_nil_iff.mpr fun w hw => by
        obtain rfl := List.eq_of_mem_replicate hw
        rfl
    rw [hnone]
    exact List.Perm.refl _

end Queued

/-! ## The result -/

/-- No thread comes or goes. -/
theorem length_workers (hs : p.step l = some q) : q.workers.length = p.workers.length := by
  cases step_cases hs <;> first | rfl | exact List.length_set | exact List.length_map _

/-- The invariants of the pool so far. -/
structure Ordered (n : Nat) (p : ThreadPool τ) : Prop where
  /-- the mutex -/
  exclusive : Exclusive p
  /-- the counter -/
  counted : Counted p
  /-- the queue -/
  queued : Queued p
  /-- the threads -/
  length : p.workers.length = n

theorem Ordered.step (hs : p.step l = some q) (h : Ordered n p) : Ordered n q :=
  ⟨h.exclusive.step hs, h.counted.step hs h.exclusive, h.queued.step hs,
    (length_workers hs).trans h.length⟩

theorem Ordered.create (n : Nat) : Ordered n (ThreadPool.create n : ThreadPool τ) :=
  ⟨.create n, .create n, .create n, List.length_replicate⟩

theorem Ordered.of_reaches {guard : ThreadPool τ → PoolLabel τ → Prop}
    (h : (pool τ n).Reaches guard p) : Ordered n p :=
  h.invariant (.create n) fun _ _ _ _ hs hI => hI.step hs

/-- **The pool is a queue with `n` servers**, however its threads are scheduled, notified and
woken: tasks are started in the order in which they were put in, each once, and those that
were started and have not returned are on as many threads. -/
theorem pool_fifo (h : (pool τ n).Reachable p) :
    p.started ++ p.tasks = p.submitted ∧ p.started.Perm (p.finished ++ p.running) ∧
      p.running.length ≤ p.tasksRunning ∧ p.tasksRunning ≤ n := by
  have hI := Ordered.of_reaches h
  refine ⟨hI.queued.fifo, hI.queued.once, ?_, ?_⟩
  · rw [hI.counted.tasksRunning_eq, ThreadPool.running]
    induction p.workers with
    | nil => exact Nat.le_refl _
    | cons w ws ih =>
      rw [total_cons, List.filterMap_cons]
      cases w <;> simp [WorkerState.task?, WorkerState.counted] <;> omega
  · rw [hI.counted.tasksRunning_eq, ← hI.length]
    exact total_le_length WorkerState.counted_le_one

/-- Two tasks, and two threads that take them; the second one wakes up for no reason, and in
time. -/
def twoTasks : ThreadPool Nat :=
  (pool Nat 2).final (fun _ _ => True) [.lock 0, .test 0, .lock 1, .test 1, .detachTask 7,
    .emplace 0, .notifyOne 0 (some 0), .wakeUp 1, .lock 1, .test 1, .take 1, .detachTask 8,
    .emplace 0, .notifyOne 0 none, .lock 0, .test 0, .take 0, .finish 0]

theorem pool_fifo_twoTasks :
    twoTasks.started ++ twoTasks.tasks = twoTasks.submitted ∧
      twoTasks.started.Perm (twoTasks.finished ++ twoTasks.running) ∧
      twoTasks.running.length ≤ twoTasks.tasksRunning ∧ twoTasks.tasksRunning ≤ 2 :=
  pool_fifo (System.reaches_final _ _ _ (by decide +kernel))

example : (twoTasks.started, twoTasks.finished) = ([7, 8], [8]) := by decide +kernel

end Woeful.BS
