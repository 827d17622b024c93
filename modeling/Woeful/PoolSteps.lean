import Woeful.BSThreadPool

/-!
# The steps of the thread pool

`Move` says everything that a step of the pool can do; the proofs about the pool are by cases
on it. What the threads are doing comes to three totals: those that count as running
(`counted`), those that have a task (`busy`), and those that will look at the queue before
they sleep again (`awake`).
-/

namespace Woeful.BS

variable {τ : Type} {p q : ThreadPool τ} {l : PoolLabel τ} {i j : Nat} {task : τ}

/-! ## What a step does -/

/-- **Everything a step can do.** -/
inductive Move (p : ThreadPool τ) : PoolLabel τ → ThreadPool τ → Prop where
  /-- `detach_task` is called -/
  | detachTask {task : τ} : p.destructor = .alive →
      Move p (.detachTask task) { p with calls := p.calls ++ [.emplacing task] }
  /-- a task is put into the queue -/
  | emplace {j : Nat} {task : τ} : p.mutex = none → p.calls[j]? = some (.emplacing task) →
      Move p (.emplace j) { p with
        tasks := p.tasks ++ [task]
        calls := p.calls.set j .notifying
        submitted := p.submitted ++ [task] }
  /-- a thread is notified -/
  | notify {j i : Nat} : p.calls[j]? = some .notifying → p.workers[i]? = some .asleep →
      Move p (.notifyOne j (some i)) { p with
        calls := p.calls.eraseIdx j
        workers := p.workers.set i .woken }
  /-- there is none to be notified -/
  | nobody {j : Nat} : p.calls[j]? = some .notifying → (∀ i : Nat, p.workers[i]? ≠ some .asleep) →
      Move p (.notifyOne j none) { p with calls := p.calls.eraseIdx j }
  /-- a thread is back from a task -/
  | back {i : Nat} : p.mutex = none → p.workers[i]? = some .head →
      (p.waiting = true → p.tasksRunning - 1 = 0 → p.tasks = [] → p.destructor ≠ .asleep) →
      Move p (.lock i) { p with
        mutex := some (.worker i)
        tasksRunning := p.tasksRunning - 1
        workers := p.workers.set i .testing }
  /-- the last thread is back, and reports it -/
  | last {i : Nat} : p.mutex = none → p.workers[i]? = some .head → p.waiting = true →
      p.tasksRunning - 1 = 0 → p.tasks = [] → p.destructor = .asleep →
      Move p (.lock i) { p with
        mutex := some (.worker i)
        tasksRunning := p.tasksRunning - 1
        workers := p.workers.set i .testing
        destructor := .woken }
  /-- a thread that was notified has the mutex again -/
  | relock {i : Nat} : p.mutex = none → p.workers[i]? = some .woken →
      Move p (.lock i) { p with
        mutex := some (.worker i)
        workers := p.workers.set i .testing }
  /-- the wait is over -/
  | wait {i : Nat} : p.workers[i]? = some .testing → i ∈ p.stops ∨ p.tasks ≠ [] →
      Move p (.test i) { p with workers := p.workers.set i .waited }
  /-- there is nothing to do -/
  | sleep {i : Nat} : p.workers[i]? = some .testing → i ∉ p.stops → p.tasks = [] →
      Move p (.test i) { p with mutex := none, workers := p.workers.set i .asleep }
  /-- a thread returns -/
  | ret {i : Nat} : p.workers[i]? = some .waited → i ∈ p.stops →
      Move p (.take i) { p with mutex := none, workers := p.workers.set i .returned }
  /-- a thread takes the oldest task -/
  | take {i : Nat} {task : τ} {tasks : List τ} : p.workers[i]? = some .waited → i ∉ p.stops →
      p.tasks = task :: tasks →
      Move p (.take i) { p with
        tasks := tasks
        mutex := none
        tasksRunning := p.tasksRunning + 1
        workers := p.workers.set i (.running task)
        started := p.started ++ [task] }
  /-- a task returns -/
  | finish {i : Nat} {task : τ} : p.workers[i]? = some (.running task) →
      Move p (.finish i) { p with
        workers := p.workers.set i .head
        finished := p.finished ++ [task] }
  /-- a thread wakes up -/
  | wakeUp {i : Nat} : p.workers[i]? = some .asleep →
      Move p (.wakeUp i) { p with workers := p.workers.set i .woken }
  /-- the destructor is called -/
  | destroy : p.destructor = .alive → p.calls = [] →
      Move p .destroy { p with destructor := .entering }
  /-- `wait` begins -/
  | enter : p.mutex = none → p.destructor = .entering →
      Move p .enter { p with mutex := some .destructor, waiting := true, destructor := .testing }
  /-- the destructor has the mutex again -/
  | reenter : p.mutex = none → p.destructor = .woken →
      Move p .enter { p with mutex := some .destructor, destructor := .testing }
  /-- `wait` returns -/
  | waited : p.destructor = .testing → p.tasksRunning = 0 → p.tasks = [] →
      Move p .waitTest { p with
        mutex := none
        waiting := false
        destructor := .destroying p.workers.length }
  /-- the destructor has to wait -/
  | waitSleep : p.destructor = .testing → (p.tasksRunning = 0 → p.tasks ≠ []) →
      Move p .waitTest { p with mutex := none, destructor := .asleep }
  /-- the destructor wakes up -/
  | waitWakeUp : p.destructor = .asleep → Move p .waitWakeUp { p with destructor := .woken }
  /-- a thread in its wait is asked to stop, and all that wait are notified -/
  | stopAll {i : Nat} : p.destructor = .destroying (i + 1) →
      Move p (.requestStop true) { p with
        stops := i :: p.stops
        workers := p.workers.map WorkerState.wake
        destructor := .joining i }
  /-- a thread is asked to stop -/
  | stop {i : Nat} : p.destructor = .destroying (i + 1) → p.workers[i]? ≠ some .asleep →
      Move p (.requestStop false) { p with stops := i :: p.stops, destructor := .joining i }
  /-- a thread is joined -/
  | join {i : Nat} : p.destructor = .joining i → p.workers[i]? = some .returned →
      Move p .join { p with destructor := .destroying i }

/-- A thread that is notified was where it is, or asleep. -/
theorem WorkerState.of_wake {w b : WorkerState τ} (h : w.wake = b) (hb : b ≠ .woken) : w = b := by
  subst h
  cases w with
  | asleep => exact absurd rfl hb
  | _ => rfl

/-- None of them sleeps. -/
theorem WorkerState.wake_ne_asleep (w : WorkerState τ) : w.wake ≠ .asleep := by
  cases w <;> exact nofun

/-- Where a thread was before all were notified. -/
theorem getElem?_wake {ws : List (WorkerState τ)} {b : WorkerState τ}
    (h : (ws.map WorkerState.wake)[i]? = some b) (hb : b ≠ .woken) : ws[i]? = some b := by
  rw [List.getElem?_map, Option.map_eq_some_iff] at h
  obtain ⟨w, hi, hw⟩ := h
  rw [hi, WorkerState.of_wake hw hb]

namespace ThreadPool

theorem sleeps_iff : p.sleeps i = true ↔ p.workers[i]? = some .asleep := by
  rw [sleeps]
  cases h : p.workers[i]? with
  | none => simp
  | some w => cases w <;> simp

theorem done_iff : p.done = true ↔ p.tasksRunning = 0 ∧ p.tasks = [] := by
  simp [done]

/-- Where a function that needs the mutex finds it. -/
theorem lock_cases (h : p.lock i = some q) : Move p (.lock i) q := by
  rw [lock] at h
  split at h
  · rename_i hmutex hi
    obtain rfl := Option.some.inj h
    by_cases hlast : p.waiting = true ∧ p.tasksRunning - 1 = 0 ∧ p.tasks = [] ∧
        p.destructor = .asleep
    · obtain ⟨hwaiting, hrunning, htasks, hasleep⟩ := hlast
      have hmove := Move.last hmutex hi hwaiting hrunning htasks hasleep
      simpa [done, notifyDone, setWorker, hwaiting, hrunning, htasks, hasleep] using hmove
    · have hmove : Move p (.lock i) _ :=
        .back hmutex hi fun hw hr ht hd => hlast ⟨hw, hr, ht, hd⟩
      convert hmove using 1
      split
      · rename_i hdone
        rw [Bool.and_eq_true, done_iff] at hdone
        rw [notifyDone, if_neg fun hd => hlast ⟨hdone.1, hdone.2.1, hdone.2.2, hd⟩]
        rfl
      · rfl
  · rename_i hmutex hi
    obtain rfl := Option.some.inj h
    exact .relock hmutex hi
  · cases h

theorem test_cases (h : p.test i = some q) : Move p (.test i) q := by
  rw [test] at h
  split at h
  · rename_i hi
    split at h
    · rename_i hgo
      obtain rfl := Option.some.inj h
      exact .wait hi hgo
    · rename_i hgo
      rw [not_or, not_not] at hgo
      obtain rfl := Option.some.inj h
      exact .sleep hi hgo.1 hgo.2
  · cases h

theorem take_cases (h : p.take i = some q) : Move p (.take i) q := by
  rw [take] at h
  split at h
  · rename_i hi
    split at h
    · rename_i hstop
      obtain rfl := Option.some.inj h
      exact .ret hi hstop
    · rename_i hstop
      split at h
      · cases h
      · rename_i task tasks htasks
        obtain rfl := Option.some.inj h
        exact .take hi hstop htasks
  · cases h

theorem notifyOne_cases {i : Option Nat} (h : p.notifyOne j i = some q) :
    Move p (.notifyOne j i) q := by
  rw [notifyOne] at h
  split at h
  · rename_i hj
    dsimp only at h
    split at h
    · rename_i i
      rw [Option.ite_none_right_eq_some] at h
      obtain ⟨hi, h⟩ := h
      obtain rfl := Option.some.inj h
      exact .notify hj (sleeps_iff.mp hi)
    · rw [Option.ite_none_left_eq_some] at h
      obtain ⟨hnone, h⟩ := h
      obtain rfl := Option.some.inj h
      refine .nobody hj fun i hi => hnone ?_
      rw [List.any_eq_true]
      exact ⟨i, List.mem_range.mpr (List.getElem?_eq_some_iff.mp hi).1, sleeps_iff.mpr hi⟩
  · cases h

/-- A call can always notify a thread, if there is one that waits, or nobody. -/
theorem exists_notifyOne (hj : p.calls[j]? = some .notifying) : ∃ i, p.notifyOne j i ≠ none := by
  by_cases hsome : ∃ i : Nat, p.workers[i]? = some .asleep
  · obtain ⟨i, hi⟩ := hsome
    refine ⟨some i, ?_⟩
    rw [notifyOne, hj]
    dsimp only
    rw [if_pos (sleeps_iff.mpr hi)]
    exact nofun
  · refine ⟨none, ?_⟩
    rw [notifyOne, hj]
    dsimp only
    rw [if_neg]
    · exact nofun
    · rw [List.any_eq_true]
      rintro ⟨i, -, hi⟩
      exact hsome ⟨i, sleeps_iff.mp hi⟩

theorem enter_cases (h : p.enter = some q) : Move p .enter q := by
  rw [enter] at h
  split at h
  · rename_i hmutex hd
    obtain rfl := Option.some.inj h
    exact .enter hmutex hd
  · rename_i hmutex hd
    obtain rfl := Option.some.inj h
    exact .reenter hmutex hd
  · cases h

theorem waitTest_cases (h : p.waitTest = some q) : Move p .waitTest q := by
  rw [waitTest, Option.ite_none_right_eq_some] at h
  obtain ⟨hd, h⟩ := h
  split at h
  · rename_i hdone
    obtain ⟨hrunning, htasks⟩ := done_iff.mp hdone
    obtain rfl := Option.some.inj h
    exact .waited hd hrunning htasks
  · rename_i hdone
    obtain rfl := Option.some.inj h
    exact .waitSleep hd fun hrunning htasks => hdone (done_iff.mpr ⟨hrunning, htasks⟩)

theorem requestStop_cases {notifies : Bool} (h : p.requestStop notifies = some q) :
    Move p (.requestStop notifies) q := by
  rw [requestStop] at h
  split at h
  · rename_i i hd
    obtain ⟨hlistens, h⟩ := Option.ite_none_right_eq_some.mp h
    obtain rfl := Option.some.inj h
    cases notifies with
    | true => exact .stopAll hd
    | false =>
      refine .stop hd fun hi => ?_
      rw [hi] at hlistens
      cases hlistens
  · cases h

/-- A thread can always be asked to stop. -/
theorem exists_requestStop (hd : p.destructor = .destroying (i + 1)) :
    ∃ notifies, p.requestStop notifies ≠ none := by
  have hlistens : ∃ notifies, (p.workers[i]?).all (·.listens notifies) = true := by
    cases p.workers[i]? with
    | none => exact ⟨true, rfl⟩
    | some w =>
      cases w with
      | testing | asleep | woken | waited => exact ⟨true, rfl⟩
      | head | running | returned => exact ⟨false, rfl⟩
  obtain ⟨notifies, hlistens⟩ := hlistens
  refine ⟨notifies, ?_⟩
  rw [requestStop, hd]
  dsimp only
  rw [if_pos hlistens]
  exact Option.some_ne_none _

theorem join_cases (h : p.join = some q) : Move p .join q := by
  rw [join] at h
  split at h
  · rename_i i hd
    split at h
    · rename_i hi
      obtain rfl := Option.some.inj h
      exact .join hd hi
    · cases h
  · cases h

end ThreadPool

theorem step_cases (h : p.step l = some q) : Move p l q := by
  cases l with
  | detachTask task =>
    obtain ⟨hd, h⟩ := Option.ite_none_right_eq_some.mp h
    obtain rfl := Option.some.inj h
    exact .detachTask hd
  | emplace j =>
    change p.emplace j = some q at h
    rw [ThreadPool.emplace] at h
    split at h
    · rename_i hmutex hj
      obtain rfl := Option.some.inj h
      exact .emplace hmutex hj
    · cases h
  | notifyOne j i => exact ThreadPool.notifyOne_cases h
  | lock i => exact ThreadPool.lock_cases h
  | test i => exact ThreadPool.test_cases h
  | take i => exact ThreadPool.take_cases h
  | finish i =>
    change p.finish i = some q at h
    rw [ThreadPool.finish] at h
    split at h
    · rename_i hi
      obtain rfl := Option.some.inj h
      exact .finish hi
    · cases h
  | wakeUp i =>
    obtain ⟨hi, h⟩ := Option.ite_none_right_eq_some.mp h
    obtain rfl := Option.some.inj h
    exact .wakeUp (ThreadPool.sleeps_iff.mp hi)
  | destroy =>
    obtain ⟨⟨hd, hcalls⟩, h⟩ := Option.ite_none_right_eq_some.mp h
    obtain rfl := Option.some.inj h
    exact .destroy hd hcalls
  | enter => exact ThreadPool.enter_cases h
  | waitTest => exact ThreadPool.waitTest_cases h
  | waitWakeUp =>
    obtain ⟨hd, h⟩ := Option.ite_none_right_eq_some.mp h
    obtain rfl := Option.some.inj h
    exact .waitWakeUp hd
  | requestStop notifies => exact ThreadPool.requestStop_cases h
  | join => exact ThreadPool.join_cases h

end Woeful.BS
