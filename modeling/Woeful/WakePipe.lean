import Woeful.Server

/-!
# The wake pipe

What `Server` leaves out of `SystemWatcher`: the flag `deconstructing`, which the watcher tests
before every `epoll.wait`, and the pipe by which the others get it out of there.
`EpollWrapper::wake` writes two bytes to it, and waits if there is no room for them. The drain
handler ends with it, and so does a `handle_connect` that stores its stream, which has
`stream_lock` until then; `~SystemWatcher` calls it after it has set the flag, and joins the
watcher afterwards. The watcher reads up to ten bytes when `epoll.wait` reports the pipe, and
would wait if there were none.

`system_watcher` is destroyed after `threadpool`, so no task is left then. What `loop->defer`
does with a closure when there is no loop any more is left open: it is queued, and never runs.
-/

namespace Woeful

open Transition

/-- Where the main thread stands, which is the loop thread as long as there is a loop. -/
inductive MainPhase where
  /-- in the loop -/
  | serving
  /-- in a handler, about to call `wake`, with `stream_lock` of a manager or without -/
  | waking (lock : Option Nat)
  /-- in `~SystemWatcher`, about to call `wake`; the flag is set -/
  | destroying
  /-- about to join the watcher -/
  | joining
  /-- `~SystemWatcher` is done -/
  | joined
  deriving DecidableEq, Repr

/-- The server, with the wake pipe. -/
structure WatcherState where
  /-- the server -/
  server : State
  /-- the number of bytes in the pipe -/
  pipe : Nat := 0
  /-- the main thread -/
  main : MainPhase := .serving
  /-- `deconstructing` -/
  deconstructing : Bool := false
  /-- the watcher has tested the flag, and is about to call `epoll.wait` -/
  looked : Bool := false
  /-- `watch` has returned -/
  returned : Bool := false

/-- Who moves. -/
inductive WatcherLabel where
  /-- a thread of the server -/
  | server (l : Label)
  /-- the watcher tests `deconstructing` -/
  | look
  /-- `wake` writes to the pipe -/
  | wake
  /-- `~SystemWatcher` is called -/
  | destroy
  /-- `watcher.join` returns -/
  | join

/-- Where a step of the loop leaves the main thread. -/
def State.mainAfter (s : State) : LoopLabel → MainPhase
  | .drain _ => .waking none
  | .resume =>
    match s.loop with
    | .insert c _ => .waking (some c.manager)
    | _ => .serving
  | _ => .serving

namespace WatcherState

variable (env : Env) (capacity : Nat) (w : WatcherState)

/-- The loop thread takes part while it is in the loop. -/
def loopStep (l : LoopLabel) : Option WatcherState :=
  if w.main = .serving then
    (w.server.loopStep env l).map ({ w with server := ·, main := w.server.mainAfter l })
  else none

/-- Whether a task waits for the `stream_lock` that `handle_connect` has. -/
def lockedOut : WorkerLabel → Bool
  | .begin i => w.server.pool.running[i]?.any fun busy =>
      w.main = .waking (some busy.task.manager)
  | _ => false

/-- A step of a worker. -/
def workerStep (l : WorkerLabel) : Option WatcherState :=
  if w.lockedOut l then none else (w.server.workerStep env l).map ({ w with server := · })

/-- `epoll.wait` reports the pipe only if there is something in it. -/
def wait (events : List Fd) : Option WatcherState :=
  if w.looked = true ∧ (env.pipes0 ∈ events → 0 < w.pipe) then
    (w.server.watchWait events).map fun server => { w with server := server, looked := false }
  else none

/-- The next event. For the pipe it is `read(pipes[0], buf, 10)`, which waits for a byte. -/
def next : Option WatcherState :=
  if w.server.watcher.phase = .next ∧ w.server.watcher.events.head? = some env.pipes0 then
    if 0 < w.pipe then
      (w.server.watchNext env).map fun server =>
        { w with server := server, pipe := w.pipe - min w.pipe 10 }
    else none
  else (w.server.watchNext env).map ({ w with server := · })

/-- A step of the watcher. -/
def watchStep : WatchLabel → Option WatcherState
  | .wait events => w.wait env events
  | .next => w.next env
  | l => (w.server.watchStep env l).map ({ w with server := · })

/-- The head of the outer loop of `watch`. -/
def look : Option WatcherState :=
  if w.server.watcher.phase = .wait ∧ w.looked = false ∧ w.returned = false then
    some (if w.deconstructing then { w with returned := true } else { w with looked := true })
  else none

/-- `write(pipes[1], "w", 2)` -/
def wake : Option WatcherState :=
  if w.pipe + 2 ≤ capacity then
    match w.main with
    | .waking _ => some { w with pipe := w.pipe + 2, main := .serving }
    | .destroying => some { w with pipe := w.pipe + 2, main := .joining }
    | _ => none
  else none

/-- `~SystemWatcher`, up to its `wake`. -/
def destroy : Option WatcherState :=
  if w.main = .serving ∧ w.server.loop = .idle ∧ w.server.pool.unfinished = [] ∧
      w.server.pool.lost = 0 then
    some { w with deconstructing := true, main := .destroying }
  else none

/-- `watcher.join` -/
def join : Option WatcherState :=
  if w.main = .joining ∧ w.returned = true then some { w with main := .joined } else none

/-- One step. -/
def step : WatcherLabel → Option WatcherState
  | .server (.loop l) => w.loopStep env l
  | .server (.watch l) => w.watchStep env l
  | .server (.worker l) => w.workerStep env l
  | .server l =>
    if w.main = .serving then (w.server.step env l).map ({ w with server := · }) else none
  | .look => w.look
  | .wake => w.wake capacity
  | .destroy => w.destroy
  | .join => w.join

end WatcherState

/-- The server with its wake pipe, for `capacity` bytes. -/
def watched (env : Env) (capacity : Nat) : System WatcherState WatcherLabel where
  init := ⟨State.initial env, 0, .serving, false, false, false⟩
  step := WatcherState.step env capacity

end Woeful
