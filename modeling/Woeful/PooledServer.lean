import Woeful.PoolWakeups
import Woeful.QueueFrame

/-!
# The server over its thread pool

`Server` has a queue of tasks and a number of workers; the program has a `BS::thread_pool`.
Here the two are put together: the loop thread submits its tasks by `detach_task`, which it is
in until the task is in the queue and a thread is notified, and the threads of the pool take
the tasks when they have the mutex. `pooled` is that program, and `PooledState.abs` what a
state of it is to the server.

The order is that of the program but for one thing. What `handle_data` does when `submit_task`
has returned, which is to count the payload and perhaps to renew the credit, is here in the step
that calls it. No worker and no thread of the pool reads or writes any of that; the watcher may
count a pass in between, which is a pass counted before the call here.
-/

namespace Woeful

open Transition

/-- The program with the pool. -/
structure PooledState where
  /-- everything but the queue: that of `core` has only what the handler has just submitted -/
  core : State
  /-- the pool -/
  pool : BS.ThreadPool WriteTask
  /-- the threads of the busy workers, in the same order -/
  seats : List Nat := []

/-- A step of the program. -/
inductive PooledLabel where
  /-- of the server, taking a task apart -/
  | server (l : Label)
  /-- of the pool -/
  | pool (l : BS.PoolLabel WriteTask)

/-- The task that a call of `detach_task` has yet to put into the queue. -/
def BS.DetachState.task? {τ : Type} : BS.DetachState τ → Option τ
  | emplacing task => some task
  | notifying => none

namespace PooledState

variable (env : Env) (c : PooledState)

/-- `submit_task` is called with what a handler has submitted. -/
def submit (core : State) : Option PooledState :=
  (core.pool.queue.foldlM BS.ThreadPool.detachTask c.pool).map fun pool =>
    { c with core := { core with pool := { core.pool with queue := [] } }, pool := pool }

/-- The loop thread goes on once `submit_task` has returned. The rest of `handle_data` comes
before the call, not after it. -/
def loopStep (l : LoopLabel) : Option PooledState :=
  if c.pool.calls.isEmpty then (c.core.loopStep env l).bind c.submit else none

/-- The task of the `k`-th busy worker returns. -/
def leave (k : Nat) (core : State) : Option PooledState :=
  match c.seats[k]? with
  | none => none
  | some i => (c.pool.finish i).map fun pool => ⟨core, pool, c.seats.eraseIdx k⟩

/-- A step in a task. A worker that is lost does not come back to the pool. -/
def workerStep : WorkerLabel → Option PooledState
  | .dequeue => none
  | .begin k => (c.core.beginTask k).map fun core =>
    { c with
      core := core
      seats := if core.pool.lost = c.core.pool.lost then c.seats else c.seats.eraseIdx k }
  | .poll k ok => (c.core.pollTask k ok).bind fun core =>
    if ok then some { c with core := core } else c.leave k core
  | .write k res => (c.core.writeTask k res).bind fun core =>
    if res = .again then some { c with core := core } else c.leave k core

/-- Thread `i` takes a task, which is now that of the last busy worker. -/
def take (i : Nat) : Option PooledState :=
  (c.pool.take i).map fun (pool : BS.ThreadPool WriteTask) =>
    match pool.workers[i]? with
    | some (.running task) => {
        core := c.core.setRunning (c.core.pool.running ++ [⟨task, .started⟩])
        pool := pool
        seats := c.seats ++ [i] }
    | _ => { c with pool := pool }

/-- A step of the pool. -/
def poolStep : BS.PoolLabel WriteTask → Option PooledState
  | .take i => c.take i
  | .emplace j => (c.pool.emplace j).map ({ c with pool := · })
  | .notifyOne j i => (c.pool.notifyOne j i).map ({ c with pool := · })
  | .lock i => (c.pool.lock i).map ({ c with pool := · })
  | .test i => (c.pool.test i).map ({ c with pool := · })
  | .wakeUp i => (c.pool.wakeUp i).map ({ c with pool := · })
  | _ => none

/-- One step. -/
def step : PooledLabel → Option PooledState
  | .server (.loop l) => c.loopStep env l
  | .server (.worker l) => c.workerStep l
  | .server l => (c.core.step env l).map ({ c with core := · })
  | .pool l => c.poolStep l

/-- The tasks that are submitted and not taken, in order. -/
def queue : List WriteTask := c.pool.tasks ++ c.pool.calls.filterMap BS.DetachState.task?

/-- What the state is to the server. -/
def abs : State := c.core.behind c.queue

end PooledState

/-- What a step is to the server. -/
def PooledLabel.visible : PooledLabel → List Label
  | server l => [l]
  | pool (.take _) => [.worker .dequeue]
  | pool _ => []

/-- The program over the pool. -/
def pooled (env : Env) : System PooledState PooledLabel where
  init := ⟨State.initial env, BS.ThreadPool.create env.threadCount, []⟩
  step := PooledState.step env

end Woeful
