import Woeful.Lib.Progress
import Woeful.PoolWakeups

/-!
# The pool comes to rest

What the threads, the calls of `detach_task` and the destructor can do by themselves is
bounded by the `work` that is left. A pool at rest has no task in its queue that a thread could
execute, and its destructor waits only for a task that is being executed (`pool_rests`). If
the tasks return, then all of them are executed, and the destructor comes to its end
(`pool_drains`).
-/

namespace Woeful.BS

open Transition Threads

variable {τ : Type} {p q : ThreadPool τ} {l : PoolLabel τ} {n : Nat}

/-! ## The work that is left -/

namespace PoolLabel

/-- The steps that the pool takes when nobody does anything to it, wake-ups for no reason
apart. -/
def own : PoolLabel τ → Bool
  | emplace _ => true
  | notifyOne _ _ => true
  | lock _ => true
  | test _ => true
  | take _ => true
  | enter => true
  | waitTest => true
  | requestStop _ => true
  | join => true
  | _ => false

/-- The same, while the tasks return. -/
def settling : PoolLabel τ → Bool
  | finish _ => true
  | l => l.own

theorem settling_of_own (h : l.own = true) : l.settling = true := by
  cases l with
  | finish i => rfl
  | _ => exact h

end PoolLabel

/-- What it takes to ask a thread to stop and to join it, in a pool of `n`: all of them may be
woken. -/
def stopWork (n : Nat) : Nat := 3 * n + 2

/-- What a thread has to do before it sleeps, in a pool of `n`. -/
def WorkerState.work (n : Nat) : WorkerState τ → Nat
  | head => n * stopWork n + 5
  | testing => 2
  | asleep => 0
  | woken => 3
  | waited => 1
  | running _ => n * stopWork n + 6
  | returned => 0

/-- What a call has to do, and the thread that it wakes. -/
def DetachState.work (n : Nat) : DetachState τ → Nat
  | emplacing _ => n * stopWork n + 11
  | notifying => 4

/-- What the destructor has to do, and the threads that it wakes. -/
def DestructorState.work (n : Nat) : DestructorState → Nat
  | alive => 0
  | entering => n * stopWork n + 2
  | testing => n * stopWork n + 1
  | asleep => 0
  | woken => n * stopWork n + 2
  | destroying m => m * stopWork n
  | joining i => i * stopWork n + 1

/-- The work that is left. -/
def ThreadPool.work (n : Nat) (p : ThreadPool τ) : Nat :=
  total (WorkerState.work n) p.workers + (n * stopWork n + 6) * p.tasks.length +
    total (DetachState.work n) p.calls + p.destructor.work n

/-- A thread moves that takes no task. -/
theorem work_lt_of_move {i : Nat} {a b : WorkerState τ} (hi : p.workers[i]? = some a)
    (hq : q.workers = p.workers.set i b) (htasks : q.tasks = p.tasks)
    (hlt : b.work n + total (DetachState.work n) q.calls + q.destructor.work n <
      a.work n + total (DetachState.work n) p.calls + p.destructor.work n) :
    q.work n < p.work n := by
  have hset := total_set (WorkerState.work n) (b := b) hi
  rw [ThreadPool.work, ThreadPool.work, hq, htasks]
  omega

/-- **Every step leaves less work.** -/
theorem work_lt (hs : p.step l = some q) (hl : l.settling = true) (hlen : p.workers.length = n) :
    q.work n < p.work n := by
  cases step_cases hs with
  | detachTask => cases hl
  | @emplace j task hm hj =>
    have hset := total_set (DetachState.work n) (b := .notifying) hj
    simp only [ThreadPool.work, List.length_append, List.length_singleton, Nat.mul_succ]
    simp only [DetachState.work] at hset
    omega
  | @notify j i hj hi =>
    have herase := total_eraseIdx (DetachState.work n) hj
    refine work_lt_of_move hi rfl rfl ?_
    simp only [DetachState.work, WorkerState.work] at herase ⊢
    omega
  | nobody hj =>
    have herase := total_eraseIdx (DetachState.work n) hj
    simp only [ThreadPool.work, DetachState.work] at herase ⊢
    omega
  | back hm hi => exact work_lt_of_move hi rfl rfl (by simp only [WorkerState.work]; omega)
  | last hm hi _ _ _ hd =>
    refine work_lt_of_move hi rfl rfl ?_
    simp only [WorkerState.work, DestructorState.work, hd]
    omega
  | relock hm hi => exact work_lt_of_move hi rfl rfl (by simp only [WorkerState.work]; omega)
  | wait hi => exact work_lt_of_move hi rfl rfl (by simp only [WorkerState.work]; omega)
  | sleep hi => exact work_lt_of_move hi rfl rfl (by simp only [WorkerState.work]; omega)
  | ret hi => exact work_lt_of_move hi rfl rfl (by simp only [WorkerState.work]; omega)
  | @take i task tasks hi hstop htasks =>
    have hset := total_set (WorkerState.work n) (b := .running task) hi
    simp only [ThreadPool.work, htasks, List.length_cons, Nat.mul_succ]
    simp only [WorkerState.work] at hset
    omega
  | finish hi => exact work_lt_of_move hi rfl rfl (by simp only [WorkerState.work]; omega)
  | wakeUp => cases hl
  | destroy => cases hl
  | enter hm hd =>
    simp only [ThreadPool.work, DestructorState.work, hd]
    omega
  | reenter hm hd =>
    simp only [ThreadPool.work, DestructorState.work, hd]
    omega
  | waited hd =>
    simp only [ThreadPool.work, DestructorState.work, hd, hlen]
    omega
  | waitSleep hd =>
    simp only [ThreadPool.work, DestructorState.work, hd]
    omega
  | waitWakeUp => cases hl
  | @stopAll i hd =>
    have hwake := total_map_le (l := p.workers) (w := WorkerState.work n) (f := WorkerState.wake)
      (c := 3) fun w => by cases w <;> simp [WorkerState.wake, WorkerState.work]
    rw [hlen] at hwake
    have hstop : stopWork n = 3 * n + 2 := rfl
    simp only [ThreadPool.work, DestructorState.work, hd, Nat.succ_mul]
    omega
  | @stop i hd =>
    have hstop : stopWork n = 3 * n + 2 := rfl
    simp only [ThreadPool.work, DestructorState.work, hd, Nat.succ_mul]
    omega
  | join hd =>
    simp only [ThreadPool.work, DestructorState.work, hd]
    omega

/-! ## What a pool at rest can not do -/

/-- The pool has nothing to do by itself. -/
abbrev Rests (n : Nat) (p : ThreadPool τ) : Prop :=
  (pool τ n).AtRest (fun _ l => l.own = true) p

namespace Rests

/-- Nobody has the mutex: he could go on. -/
theorem mutex (h : Rests n p) (hp : Sound n p) : p.mutex = none := by
  have hheld := hp.held
  rw [Held] at hheld
  split at hheld
  · assumption
  · rename_i i heq
    obtain ⟨w, hi, hw⟩ := hheld
    exfalso
    cases w with
    | testing =>
      have htest : p.test i = none := h (.test i) rfl
      rw [ThreadPool.test, hi] at htest
      dsimp only at htest
      split at htest <;> cases htest
    | waited =>
      have htake : p.take i = none := h (.take i) rfl
      rw [ThreadPool.take, hi] at htake
      dsimp only at htake
      split at htake
      · cases htake
      · rename_i hstop
        split at htake
        · rename_i hnil
          exact hp.counted.waited_tasks i hi hstop hnil
        · cases htake
    | _ => cases hw
  · exfalso
    have htest : p.waitTest = none := h .waitTest rfl
    rw [ThreadPool.waitTest, if_pos hheld] at htest
    split at htest <;> cases htest

/-- No call of `detach_task` is under way. -/
theorem calls (h : Rests n p) (hp : Sound n p) : p.calls = [] := by
  have hmutex := h.mutex hp
  by_contra hne
  obtain ⟨c, cs, hcalls⟩ := List.exists_cons_of_ne_nil hne
  have hj : p.calls[0]? = some c := by rw [hcalls]; rfl
  cases c with
  | emplacing task =>
    have hemplace : p.emplace 0 = none := h (.emplace 0) rfl
    rw [ThreadPool.emplace, hmutex, hj] at hemplace
    cases hemplace
  | notifying =>
    obtain ⟨i, hi⟩ := ThreadPool.exists_notifyOne hj
    exact hi (h (.notifyOne 0 i) rfl)

/-- A thread that needs the mutex could take it. -/
theorem worker {i : Nat} {w : WorkerState τ} (h : Rests n p) (hp : Sound n p)
    (hi : p.workers[i]? = some w) : w = .asleep ∨ (∃ task, w = .running task) ∨ w = .returned := by
  have hmutex := h.mutex hp
  have hfree : w.owns = true → False := fun hw => by
    have hown := hp.exclusive.worker i w hi hw
    rw [hmutex] at hown
    cases hown
  have hlock : p.lock i = none := h (.lock i) rfl
  rw [ThreadPool.lock, hmutex, hi] at hlock
  cases w with
  | head => cases hlock
  | testing => exact (hfree rfl).elim
  | asleep => exact Or.inl rfl
  | woken => cases hlock
  | waited => exact (hfree rfl).elim
  | running task => exact Or.inr (Or.inl ⟨task, rfl⟩)
  | returned => exact Or.inr (Or.inr rfl)

/-- A thread sleeps only if there is nothing to do. -/
theorem tasks {i : Nat} (h : Rests n p) (hp : Sound n p) (hi : p.workers[i]? = some .asleep) :
    p.tasks = [] := by
  have hle := hp.wakeful i hi
  have hawake : total WorkerState.awake p.workers = 0 := by
    by_contra hne
    obtain ⟨j, w, hj, hw⟩ := exists_of_total_ne_zero hne
    rcases h.worker hp hj with rfl | ⟨task, rfl⟩ | rfl <;> exact hw rfl
  rw [hawake, h.calls hp] at hle
  exact List.length_eq_zero_iff.mp (Nat.le_zero.mp hle)

/-- Nothing is left in the queue that a thread could execute. -/
theorem running (h : Rests n p) (hp : Sound n p) : p.tasks = [] ∨ p.running.length = n := by
  by_cases htasks : p.tasks = []
  · exact Or.inl htasks
  · right
    have hall : ∀ w ∈ p.workers, ∃ task, w = .running task := by
      intro w hw
      obtain ⟨i, hi⟩ := List.mem_iff_getElem?.mp hw
      rcases h.worker hp hi with rfl | hrunning | rfl
      · exact absurd (h.tasks hp hi) htasks
      · exact hrunning
      · obtain ⟨_, _, hsome, -⟩ := (hp.stopped.mem_stops i).mp (hp.stopped.returned i hi)
        exact absurd (hp.emptied fun hnone => by rw [hnone] at hsome; cases hsome).1 htasks
    rw [← hp.length, ThreadPool.running]
    refine Nat.le_antisymm (List.length_filterMap_le ..) (Nat.not_lt.mp fun hlt => ?_)
    obtain ⟨w, hw, hnone⟩ := List.length_filterMap_lt_length_iff_exists.mp hlt
    obtain ⟨task, rfl⟩ := hall w hw
    cases hnone

/-- The destructor waits only for a task that is being executed. -/
theorem destructor (h : Rests n p) (hp : Sound n p) (hn : 0 < n) :
    p.destructor = .alive ∨ p.destructor = .destroying 0 ∨ p.running ≠ [] := by
  have hmutex := h.mutex hp
  cases hd : p.destructor with
  | alive => exact Or.inl rfl
  | entering =>
    have henter : p.enter = none := h .enter rfl
    rw [ThreadPool.enter, hmutex, hd] at henter
    cases henter
  | testing =>
    have hown := hp.exclusive.destructor hd
    rw [hmutex] at hown
    cases hown
  | asleep =>
    right
    right
    rcases h.running hp with htasks | hrunning
    · -- a thread counts as running, and is not at the head of its loop
      have hne : p.tasksRunning ≠ 0 := fun hzero => hp.waiting.undone hd hzero htasks
      rw [hp.counted.tasksRunning_eq] at hne
      obtain ⟨i, w, hi, hw⟩ := exists_of_total_ne_zero hne
      rcases h.worker hp hi with rfl | ⟨task, rfl⟩ | rfl
      · exact absurd rfl hw
      · have hmem : task ∈ p.running :=
          List.mem_filterMap.mpr ⟨_, List.mem_of_getElem? hi, rfl⟩
        exact List.ne_nil_of_mem hmem
      · exact absurd rfl hw
    · exact List.ne_nil_of_length_pos (hrunning ▸ hn)
  | woken =>
    have henter : p.enter = none := h .enter rfl
    rw [ThreadPool.enter, hmutex, hd] at henter
    cases henter
  | destroying m =>
    cases m with
    | zero => exact Or.inr (Or.inl rfl)
    | succ i =>
      obtain ⟨notifies, hstop⟩ := ThreadPool.exists_requestStop hd
      exact absurd (h (.requestStop notifies) rfl) hstop
  | joining i =>
    exfalso
    have hleft : p.destructor.left = some (i, i + 1) := by rw [hd]; rfl
    have hlt := (hp.stopped.joined i (i + 1) hleft).1
    have hstop := (hp.stopped.mem_stops i).mpr ⟨_, _, hleft, Nat.le_refl _, hlt⟩
    have hi := List.getElem?_eq_getElem hlt
    have hjoin : p.join = none := h .join rfl
    rw [ThreadPool.join, hd] at hjoin
    dsimp only at hjoin
    rcases h.worker hp hi with hw | ⟨task, hw⟩ | hw
    · exact hp.stopped.not_asleep i hstop (hi.trans (congrArg some hw))
    · -- after the wait nothing is executed
      have hmem : task ∈ p.running :=
        List.mem_filterMap.mpr ⟨_, List.mem_of_getElem? hi, by rw [hw]; rfl⟩
      rw [hp.running_eq_nil (by rw [hleft]; simp)] at hmem
      cases hmem
    · rw [hi, hw] at hjoin
      cases hjoin

/-- A pool rests if its threads sleep, execute or have returned, no call is under way, and the
destructor was not called, waits to be notified, or is done. -/
theorem of_workers (hcalls : p.calls = [])
    (hworkers : ∀ w ∈ p.workers, w = .asleep ∨ (∃ task, w = .running task) ∨ w = .returned)
    (hdestructor : p.destructor = .alive ∨ p.destructor = .asleep ∨
      p.destructor = .destroying 0) : Rests n p := by
  have hworker : ∀ {i : Nat} {w : WorkerState τ}, p.workers[i]? = some w →
      w = .asleep ∨ (∃ task, w = .running task) ∨ w = .returned :=
    fun hi => hworkers _ (List.mem_of_getElem? hi)
  have hcall : ∀ {j : Nat} {c : DetachState τ}, p.calls[j]? ≠ some c := by
    intro j c hj
    rw [hcalls] at hj
    cases hj
  have hdead : ∀ {d : DestructorState}, p.destructor = d →
      d = .alive ∨ d = .asleep ∨ d = .destroying 0 := fun hd => hd ▸ hdestructor
  intro l hl
  by_contra hne
  obtain ⟨q, hs⟩ := Option.ne_none_iff_exists'.mp hne
  cases step_cases hs with
  | detachTask | finish | wakeUp | destroy | waitWakeUp => cases hl
  | emplace _ hj | notify hj | nobody hj => exact hcall hj
  | back _ hi | last _ hi | relock _ hi | wait hi | sleep hi | ret hi | take hi =>
    simpa using hworker hi
  | enter _ hd | reenter _ hd | waited hd | waitSleep hd | stopAll hd | stop hd | join hd =>
    simpa using hdead hd

end Rests

/-- If it executes nothing either, it has nothing to do when the tasks return. -/
theorem Rests.atRest (h : Rests n p) (hrunning : p.running = []) :
    (pool τ n).AtRest (fun _ l => l.settling = true) p := by
  intro l hl
  cases l with
  | finish i =>
    by_contra hne
    obtain ⟨q, hs⟩ := Option.ne_none_iff_exists'.mp hne
    have hs : p.step (.finish i) = some q := hs
    cases step_cases hs with
    | @finish _ task hi =>
      have hmem : task ∈ p.running :=
        List.mem_filterMap.mpr ⟨_, List.mem_of_getElem? hi, rfl⟩
      rw [hrunning] at hmem
      cases hmem
  | _ => exact h _ hl

/-! ## The results -/

theorem ThreadPool.determineThreadCount_pos (hardwareConcurrency numThreads : Nat) :
    0 < determineThreadCount hardwareConcurrency numThreads := by
  rw [determineThreadCount]
  split
  · assumption
  · split
    · assumption
    · exact Nat.one_pos

/-- Runs of steps that leave less work are bounded. -/
theorem length_le_work {as : List (PoolLabel τ)} {guard : ThreadPool τ → PoolLabel τ → Prop}
    (hguard : ∀ p l, guard p l → l.settling = true) (hlen : p.workers.length = n)
    (h : (pool τ n).Run guard p as q) : as.length ≤ p.work n := by
  have hcount := h.countP_le (p := fun _ => true) (μ := ThreadPool.work n)
    (I := fun p => p.workers.length = n) (fun _ _ _ _ hs hI => (length_workers hs).trans hI)
    (fun p l _ hg hs hI _ => work_lt hs (hguard p l hg) hI) (fun _ _ _ _ _ _ hp => nomatch hp) hlen
  rw [List.countP_true] at hcount
  exact Nat.le_of_add_right_le hcount

/-- **Left alone, the pool comes to rest**, after at most `work` steps, however its threads are
scheduled and whichever of them is notified; and where it has, there is no call of
`detach_task` that does not return, no task in the queue unless all threads execute one, and
the destructor, if it was called, is done, or waits for a task that is being executed. -/
theorem pool_rests {hardwareConcurrency numThreads : Nat} {as : List (PoolLabel τ)}
    (h : (pool τ (ThreadPool.determineThreadCount hardwareConcurrency numThreads)).Reachable p)
    (hrun : (pool τ (ThreadPool.determineThreadCount hardwareConcurrency numThreads)).Run
      (fun _ l => l.own = true) p as q) :
    as.length ≤ p.work p.workers.length ∧
      (Rests (ThreadPool.determineThreadCount hardwareConcurrency numThreads) q →
        q.calls = [] ∧ (q.tasks = [] ∨ q.running.length = q.workers.length) ∧
          (q.destructor = .alive ∨ q.destructor = .destroying 0 ∨ q.running ≠ [])) := by
  have hpos := ThreadPool.determineThreadCount_pos hardwareConcurrency numThreads
  have hp := Sound.of_reaches h
  have hq := hrun.preserves (fun _ _ _ _ hs hI => hI.step hs) hp
  refine ⟨?_, fun hrest => ?_⟩
  · rw [hp.length]
    exact length_le_work (fun _ _ hl => PoolLabel.settling_of_own hl) hp.length hrun
  · rw [hq.length]
    exact ⟨hrest.calls hq, hrest.running hq, hrest.destructor hq hpos⟩

/-- A pool for one task at a time, whatever the machine has. -/
abbrev onePool : System (ThreadPool Nat) (PoolLabel Nat) :=
  pool Nat (ThreadPool.determineThreadCount 8 1)

/-- A task that was just put into the queue, with a thread that sleeps. -/
def oneTask : ThreadPool Nat :=
  onePool.final (fun _ _ => True) [.lock 0, .test 0, .detachTask 7, .emplace 0]

/-- The thread is notified, and takes it. -/
def oneTaskNotified : List (PoolLabel Nat) := [.notifyOne 0 (some 0), .lock 0, .test 0, .take 0]

/-- It executes the task. -/
def oneTaskTaken : ThreadPool Nat :=
  (onePool.replay (fun _ l => l.own = true) oneTask oneTaskNotified).getD oneTask

theorem pool_rests_oneTask :
    oneTaskNotified.length ≤ oneTask.work oneTask.workers.length ∧
      oneTaskTaken.calls = [] ∧
        (oneTaskTaken.tasks = [] ∨
          oneTaskTaken.running.length = oneTaskTaken.workers.length) ∧
        (oneTaskTaken.destructor = .alive ∨ oneTaskTaken.destructor = .destroying 0 ∨
          oneTaskTaken.running ≠ []) := by
  have hrun : onePool.Run (fun _ l => l.own = true) oneTask oneTaskNotified oneTaskTaken :=
    System.Run.of_replay_getD (by decide +kernel)
  have hrest : Rests (ThreadPool.determineThreadCount 8 1) oneTaskTaken := by
    have hworkers : oneTaskTaken.workers = [.running 7] := by decide +kernel
    refine .of_workers (by decide +kernel) ?_ (Or.inl (by decide +kernel))
    rw [hworkers]
    exact fun w hw => Or.inr (Or.inl ⟨7, List.mem_singleton.mp hw⟩)
  obtain ⟨hlen, hend⟩ := pool_rests (System.reaches_final _ _ _ (by decide +kernel)) hrun
  exact ⟨hlen, hend hrest⟩

/-- **If its tasks return, the pool does everything that it was asked to do**: it takes at most
`work` steps more, and where it can not take one every task has been executed, once, no thread
or call waits for anything but a new task, and the destructor, if it was called, is done. -/
theorem pool_drains {hardwareConcurrency numThreads : Nat} {as : List (PoolLabel τ)}
    (h : (pool τ (ThreadPool.determineThreadCount hardwareConcurrency numThreads)).Reachable p)
    (hrun : (pool τ (ThreadPool.determineThreadCount hardwareConcurrency numThreads)).Run
      (fun _ l => l.settling = true) p as q) :
    as.length ≤ p.work p.workers.length ∧
      ((pool τ (ThreadPool.determineThreadCount hardwareConcurrency numThreads)).AtRest
          (fun _ l => l.settling = true) q →
        q.finished.Perm q.submitted ∧ q.tasks = [] ∧ q.calls = [] ∧
          (q.destructor = .alive ∨ q.destructor = .destroying 0) ∧
          ∀ w ∈ q.workers, w = .asleep ∨ w = .returned) := by
  have hpos := ThreadPool.determineThreadCount_pos hardwareConcurrency numThreads
  have hp := Sound.of_reaches h
  have hq := hrun.preserves (fun _ _ _ _ hs hI => hI.step hs) hp
  refine ⟨?_, fun hrest => ?_⟩
  · rw [hp.length]
    exact length_le_work (fun _ _ hl => hl) hp.length hrun
  · have hown : Rests _ q := fun l hl => hrest l (PoolLabel.settling_of_own hl)
    have hworkers : ∀ w ∈ q.workers, w = .asleep ∨ w = .returned := by
      intro w hw
      obtain ⟨i, hi⟩ := List.mem_iff_getElem?.mp hw
      rcases hown.worker hq hi with rfl | ⟨task, rfl⟩ | rfl
      · exact Or.inl rfl
      · have hfinish : q.finish i = none := hrest (.finish i) rfl
        rw [ThreadPool.finish, hi] at hfinish
        cases hfinish
      · exact Or.inr rfl
    have hrunning : q.running = [] :=
      List.filterMap_eq_nil_iff.mpr fun w hw => by
        rcases hworkers w hw with rfl | rfl <;> rfl
    have htasks : q.tasks = [] := by
      refine (hown.running hq).resolve_right fun hlen => ?_
      rw [hrunning] at hlen
      exact absurd hpos (hlen ▸ Nat.lt_irrefl _)
    have honce := hq.queued.once
    have hfifo := hq.queued.fifo
    rw [hrunning, List.append_nil] at honce
    rw [htasks, List.append_nil] at hfifo
    refine ⟨hfifo ▸ honce.symm, htasks, hown.calls hq, ?_, hworkers⟩
    rcases hown.destructor hq hpos with hd | hd | hne
    · exact Or.inl hd
    · exact Or.inr hd
    · exact absurd hrunning hne

/-- The destructor is called, and the thread goes on as far as it can. -/
def oneTaskDestroyed : ThreadPool Nat :=
  onePool.final (fun _ _ => True)
    [.lock 0, .test 0, .detachTask 7, .emplace 0, .notifyOne 0 (some 0), .destroy]

/-- It executes its task, and stops. -/
def oneTaskFinishes : List (PoolLabel Nat) :=
  [.lock 0, .test 0, .take 0, .finish 0, .lock 0, .test 0, .enter, .waitTest, .requestStop true,
    .lock 0, .test 0, .take 0, .join]

/-- The destructor is done. -/
def oneTaskDone : ThreadPool Nat :=
  (onePool.replay (fun _ l => l.settling = true) oneTaskDestroyed oneTaskFinishes).getD
    oneTaskDestroyed

theorem pool_drains_oneTask :
    oneTaskFinishes.length ≤ oneTaskDestroyed.work oneTaskDestroyed.workers.length ∧
      oneTaskDone.finished.Perm oneTaskDone.submitted ∧ oneTaskDone.tasks = [] ∧
        oneTaskDone.calls = [] ∧
        (oneTaskDone.destructor = .alive ∨ oneTaskDone.destructor = .destroying 0) ∧
        ∀ w ∈ oneTaskDone.workers, w = .asleep ∨ w = .returned := by
  have hrun : onePool.Run (fun _ l => l.settling = true) oneTaskDestroyed oneTaskFinishes
      oneTaskDone := System.Run.of_replay_getD (by decide +kernel)
  have hrest : Rests (ThreadPool.determineThreadCount 8 1) oneTaskDone := by
    have hworkers : oneTaskDone.workers = [.returned] := by decide +kernel
    refine .of_workers (by decide +kernel) ?_ (Or.inr (Or.inr (by decide +kernel)))
    rw [hworkers]
    exact fun w hw => Or.inr (Or.inr (List.mem_singleton.mp hw))
  obtain ⟨hlen, hend⟩ := pool_drains (System.reaches_final _ _ _ (by decide +kernel)) hrun
  exact ⟨hlen, hend (hrest.atRest (by decide +kernel))⟩

end Woeful.BS
