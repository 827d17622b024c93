import Woeful.Lib.Run
import Woeful.Lib.Threads

/-!
# The thread pool

`BS::thread_pool<BS::tp::none>` (`BS_thread_pool.hpp`) as C++20 builds it, with `std::jthread`:
`detach_task`, which `submit_task` calls, `worker`, `wait` and the destructor. `pop_task` is
part of the step that calls it.

A thread holds `tasks_mutex` from the step in which it takes it to the one in which it
releases it; what it does in between is one step, unless another thread could still do
something about it: the test of a condition variable comes between two such points, since
a thread can be asked to stop without the mutex. A thread that waits for a condition variable
is `asleep` until it is notified, or wakes up for no reason, and then has to take the mutex
again. The wait for `task_available_cv` takes a stop token: while a thread is in it, a request
that it stop notifies all that wait for the variable.

The three lists at the end of `ThreadPool` are history, which no step reads.
-/

namespace Woeful.BS

open Transition

variable {τ : Type}

/-- Where a thread of the pool stands in `worker`. -/
inductive WorkerState (τ : Type) where
  /-- at the head of the loop, about to take the mutex: started, or back from a task -/
  | head
  /-- in `task_available_cv.wait`, with the mutex, about to test -/
  | testing
  /-- in `task_available_cv.wait`, without the mutex -/
  | asleep
  /-- notified, about to take the mutex again -/
  | woken
  /-- past the wait, with the mutex -/
  | waited
  /-- in `task()` -/
  | running (task : τ)
  /-- `worker` has returned -/
  | returned
  deriving DecidableEq, Repr

/-- A thread that is notified. -/
def WorkerState.wake : WorkerState τ → WorkerState τ
  | asleep => woken
  | w => w

/-- Whether a thread's stop callback may be registered, or not be. It is while the thread is
without the mutex in `task_available_cv.wait`; the wait registers it at its beginning and
takes it back at its end. -/
def WorkerState.listens (registered : Bool) : WorkerState τ → Bool
  | testing => true
  | asleep => registered
  | woken => registered
  | waited => true
  | _ => !registered

/-- Where a call of `detach_task` stands. -/
inductive DetachState (τ : Type) where
  /-- about to take the mutex -/
  | emplacing (task : τ)
  /-- about to call `task_available_cv.notify_one` -/
  | notifying
  deriving DecidableEq, Repr

/-- Where the destructor stands. -/
inductive DestructorState where
  /-- it was not called -/
  | alive
  /-- at the head of `wait`, about to take the mutex -/
  | entering
  /-- in `tasks_done_cv.wait`, with the mutex, about to test -/
  | testing
  /-- in `tasks_done_cv.wait`, without the mutex -/
  | asleep
  /-- notified, about to take the mutex again -/
  | woken
  /-- in the destructor of `threads`: the first `n` of them are left -/
  | destroying (n : Nat)
  /-- the same; thread `i` was asked to stop and is joined -/
  | joining (i : Nat)
  deriving DecidableEq, Repr

/-- Who holds `tasks_mutex`. -/
inductive Holder where
  /-- thread `i` of the pool -/
  | worker (i : Nat)
  /-- the destructor -/
  | destructor
  deriving DecidableEq, Repr

/-- `BS::thread_pool` -/
structure ThreadPool (τ : Type) where
  /-- `tasks` -/
  tasks : List τ := []
  /-- the holder of `tasks_mutex` -/
  mutex : Option Holder := none
  /-- `tasks_running` -/
  tasksRunning : Nat := 0
  /-- `waiting` -/
  waiting : Bool := false
  /-- the threads -/
  workers : List (WorkerState τ) := []
  /-- the threads that were asked to stop -/
  stops : List Nat := []
  /-- the calls of `detach_task` that have not returned -/
  calls : List (DetachState τ) := []
  /-- the destructor -/
  destructor : DestructorState := .alive
  /-- the tasks that were put into the queue -/
  submitted : List τ := []
  /-- the tasks that were taken out of it -/
  started : List τ := []
  /-- the tasks that have returned -/
  finished : List τ := []

/-- What can happen. -/
inductive PoolLabel (τ : Type) where
  /-- `detach_task` is called -/
  | detachTask (task : τ)
  /-- call `j` puts its task into the queue -/
  | emplace (j : Nat)
  /-- call `j` notifies thread `i`, or nobody -/
  | notifyOne (j : Nat) (i : Option Nat)
  /-- thread `i` takes the mutex -/
  | lock (i : Nat)
  /-- thread `i` tests what it waits for -/
  | test (i : Nat)
  /-- thread `i` takes a task, or stops -/
  | take (i : Nat)
  /-- the task of thread `i` returns -/
  | finish (i : Nat)
  /-- thread `i` wakes up, for no reason -/
  | wakeUp (i : Nat)
  /-- the destructor is called -/
  | destroy
  /-- the destructor takes the mutex -/
  | enter
  /-- the destructor tests what it waits for -/
  | waitTest
  /-- the destructor wakes up, for no reason -/
  | waitWakeUp
  /-- the destructor asks the last thread that is left to stop; whether that notifies -/
  | requestStop (notifies : Bool)
  /-- `join` of that thread returns -/
  | join
  deriving DecidableEq, Repr

namespace ThreadPool

/-- `determine_thread_count`, with what `hardware_concurrency` returns. -/
def determineThreadCount (hardwareConcurrency numThreads : Nat) : Nat :=
  if 0 < numThreads then numThreads
  else if 0 < hardwareConcurrency then hardwareConcurrency
  else 1

/-- `create_threads`: until they take the mutex for the first time, the threads count as
running. -/
def create (threadCount : Nat) : ThreadPool τ where
  tasksRunning := threadCount
  workers := List.replicate threadCount .head

variable (p : ThreadPool τ)

/-- Thread `i` moves. -/
def setWorker (i : Nat) (w : WorkerState τ) : ThreadPool τ :=
  { p with workers := p.workers.set i w }

/-- `tasks_running == 0 && tasks.empty()` -/
def done : Bool := p.tasksRunning = 0 && p.tasks.isEmpty

/-! ## `detach_task` -/

/-- `detach_task` may be called while the pool exists. -/
def detachTask (task : τ) : Option (ThreadPool τ) :=
  if p.destructor = .alive then some { p with calls := p.calls ++ [.emplacing task] } else none

/-- `tasks.emplace` -/
def emplace (j : Nat) : Option (ThreadPool τ) :=
  match p.mutex, p.calls[j]? with
  | none, some (.emplacing task) => some { p with
      tasks := p.tasks ++ [task]
      calls := p.calls.set j .notifying
      submitted := p.submitted ++ [task] }
  | _, _ => none

/-- `task_available_cv.notify_all` -/
def notifyAvailable : ThreadPool τ := { p with workers := p.workers.map WorkerState.wake }

/-- Whether thread `i` waits for `task_available_cv`. -/
def sleeps (i : Nat) : Bool :=
  match p.workers[i]? with
  | some .asleep => true
  | _ => false

/-- `task_available_cv.notify_one`: it wakes a thread that waits, if there is one. -/
def notifyOne (j : Nat) (i : Option Nat) : Option (ThreadPool τ) :=
  match p.calls[j]? with
  | some .notifying =>
    let p' : ThreadPool τ := { p with calls := p.calls.eraseIdx j }
    match i with
    | some i => if p.sleeps i then some (p'.setWorker i .woken) else none
    | none => if (List.range p.workers.length).any p.sleeps then none else some p'
  | _ => none

/-! ## `worker` -/

/-- `tasks_done_cv.notify_all` -/
def notifyDone : ThreadPool τ :=
  if p.destructor = .asleep then { p with destructor := .woken } else p

/-- Thread `i` takes the mutex; at the head of the loop it reports that it has nothing to do. -/
def lock (i : Nat) : Option (ThreadPool τ) :=
  match p.mutex, p.workers[i]? with
  | none, some .head =>
    let p : ThreadPool τ :=
      { p with mutex := some (.worker i), tasksRunning := p.tasksRunning - 1 }
    some ((if p.waiting && p.done then p.notifyDone else p).setWorker i .testing)
  | none, some .woken => some ({ p with mutex := some (.worker i) }.setWorker i .testing)
  | _, _ => none

/-- `task_available_cv.wait`: the thread goes on if it is to stop or there is a task, and
releases the mutex otherwise. -/
def test (i : Nat) : Option (ThreadPool τ) :=
  match p.workers[i]? with
  | some .testing =>
    if i ∈ p.stops ∨ p.tasks ≠ [] then some (p.setWorker i .waited)
    else some ({ p with mutex := none }.setWorker i .asleep)
  | _ => none

/-- The thread returns if it is to stop, and takes the oldest task otherwise. The front of an
empty queue would be undefined. -/
def take (i : Nat) : Option (ThreadPool τ) :=
  match p.workers[i]? with
  | some .waited =>
    if i ∈ p.stops then some ({ p with mutex := none }.setWorker i .returned)
    else
      match p.tasks with
      | [] => none
      | task :: tasks => some ({ p with
          tasks := tasks
          mutex := none
          tasksRunning := p.tasksRunning + 1
          started := p.started ++ [task] }.setWorker i (.running task))
  | _ => none

/-- `task()` returns. -/
def finish (i : Nat) : Option (ThreadPool τ) :=
  match p.workers[i]? with
  | some (.running task) =>
    some ({ p with finished := p.finished ++ [task] }.setWorker i .head)
  | _ => none

/-- A spurious wake-up. -/
def wakeUp (i : Nat) : Option (ThreadPool τ) :=
  if p.sleeps i then some (p.setWorker i .woken) else none

/-! ## `~thread_pool` -/

/-- The destructor may be called once, and only when no call is under way. -/
def destroy : Option (ThreadPool τ) :=
  if p.destructor = .alive ∧ p.calls = [] then some { p with destructor := .entering } else none

/-- `wait` takes the mutex. -/
def enter : Option (ThreadPool τ) :=
  match p.mutex, p.destructor with
  | none, .entering =>
    some { p with mutex := some .destructor, waiting := true, destructor := .testing }
  | none, .woken => some { p with mutex := some .destructor, destructor := .testing }
  | _, _ => none

/-- `tasks_done_cv.wait`, and the end of `wait`. -/
def waitTest : Option (ThreadPool τ) :=
  if p.destructor = .testing then
    if p.done then
      some { p with mutex := none, waiting := false, destructor := .destroying p.workers.length }
    else some { p with mutex := none, destructor := .asleep }
  else none

/-- A spurious wake-up. -/
def waitWakeUp : Option (ThreadPool τ) :=
  if p.destructor = .asleep then some { p with destructor := .woken } else none

/-- `~jthread`: `request_stop`, which calls what the thread's wait has registered. -/
def requestStop (notifies : Bool) : Option (ThreadPool τ) :=
  match p.destructor with
  | .destroying (i + 1) =>
    let p' : ThreadPool τ := { p with stops := i :: p.stops, destructor := .joining i }
    if (p.workers[i]?).all (·.listens notifies) then
      some (if notifies then p'.notifyAvailable else p')
    else none
  | _ => none

/-- `~jthread`: `join`. -/
def join : Option (ThreadPool τ) :=
  match p.destructor with
  | .joining i =>
    match p.workers[i]? with
    | some .returned => some { p with destructor := .destroying i }
    | _ => none
  | _ => none

/-- One step. -/
def step : PoolLabel τ → Option (ThreadPool τ)
  | .detachTask task => p.detachTask task
  | .emplace j => p.emplace j
  | .notifyOne j i => p.notifyOne j i
  | .lock i => p.lock i
  | .test i => p.test i
  | .take i => p.take i
  | .finish i => p.finish i
  | .wakeUp i => p.wakeUp i
  | .destroy => p.destroy
  | .enter => p.enter
  | .waitTest => p.waitTest
  | .waitWakeUp => p.waitWakeUp
  | .requestStop notifies => p.requestStop notifies
  | .join => p.join

end ThreadPool

/-- A pool of `threadCount` threads, and those who use it. -/
def pool (τ : Type) (threadCount : Nat) : System (ThreadPool τ) (PoolLabel τ) where
  init := ThreadPool.create threadCount
  step := ThreadPool.step

end Woeful.BS
