import Woeful.Lib.Store
import Woeful.SystemInterface

/-!
# The state of the server

The objects of `websocketManager.h` and the three kinds of threads that share
them: the loop thread of uWS (all event handlers and deferred closures), the
watcher thread (`SystemWatcher::watch`) and the workers of the thread pool.

Each thread is a program counter. `LoopState` has one constructor for every
point at which another thread can get in between two actions of the loop thread
that it could tell apart; `WatcherPhase` and `TaskPhase` do the same for the
others. What happens between two such points is one step.

Three things in the state are history, which no step reads: the sockets that
answered the reads of a pass (`Pass.reads`), the socket a task's stream was
bound to when the task was submitted (`WriteTask.sock`), and the `log`.
-/

namespace Woeful

open Memory

/-! ## What a run is given from outside -/

/-- What `ws->send` answers. -/
inductive SendStatus where
  /-- `BACKPRESSURE`: queued, the client is slow -/
  | backpressure
  /-- `SUCCESS` -/
  | success
  /-- `DROPPED`: discarded -/
  | dropped
  deriving DecidableEq, Repr

/-- The parameters of a run. -/
structure Env where
  /-- the configuration that was installed -/
  conf : WoefulConfig := {}
  /-- `THREAD_COUNT` -/
  threadCount : Nat := 1
  /-- the answer of `ws->send` to the frame that becomes entry `n` of the log -/
  status : Nat → SendStatus := fun _ => .success
  /-- `epoll.pipes[0]` -/
  pipes0 : Fd := 4

/-! ## The watcher thread -/

/-- The result of one `read`. -/
inductive ReadResult where
  /-- `count > 0` -/
  | bytes (buf : Bytes)
  /-- `count == 0` -/
  | eof
  /-- `EAGAIN` -/
  | again
  /-- any other error -/
  | error
  deriving DecidableEq, Repr

namespace ReadResult

/-- The bytes a read returned. -/
def data : ReadResult → Bytes
  | bytes buf => buf
  | _ => []

/-- The results that set `to_close`. -/
def closes : ReadResult → Bool
  | eof => true
  | error => true
  | _ => false

/-- A read into the buffer returns between 1 and `SEGMENT_SIZE` bytes, or none. -/
def possible : ReadResult → Bool
  | bytes buf => !buf.isEmpty && buf.length ≤ segmentSize
  | _ => true

end ReadResult

/-- One `read`, with the socket its descriptor stood for at that moment. -/
structure Read where
  /-- the socket that answered; `none` where the descriptor stood for none -/
  sock : Option Nat
  /-- the answer -/
  result : ReadResult
  deriving DecidableEq, Repr

/-- One pass of the `for` loop in `watch`, from the event to the deferred
closure: `fd`, `combined_buffer` and `to_close` are what the closure captures. -/
structure Pass where
  /-- the descriptor of the event -/
  fd : Fd
  /-- what was read so far -/
  combinedBuffer : Bytes
  /-- whether the closure is to close the stream -/
  toClose : Bool
  /-- passes are numbered (history) -/
  serial : Nat
  /-- the reads made so far (history) -/
  reads : List Read
  /-- the buffer is what was read, in order -/
  combined_eq : combinedBuffer = reads.flatMap fun r => r.result.data
  /-- the flag is set by the reads that close -/
  toClose_eq : toClose = reads.any fun r => r.result.closes
  deriving DecidableEq, Repr

namespace Pass

/-- The pass at its start: an empty buffer and no read. -/
def start (fd : Fd) (serial : Nat) : Pass := ⟨fd, [], false, serial, [], rfl, rfl⟩

/-- The pass after one more read. -/
def read (p : Pass) (r : Read) : Pass where
  fd := p.fd
  combinedBuffer := p.combinedBuffer ++ r.result.data
  toClose := p.toClose || r.result.closes
  serial := p.serial
  reads := p.reads ++ [r]
  combined_eq := by
    rw [List.flatMap_append, ← p.combined_eq]
    simp
  toClose_eq := by
    rw [List.any_append, ← p.toClose_eq]
    simp

end Pass

/-- Where the watcher thread stands. -/
inductive WatcherPhase where
  /-- about to call `epoll.wait` -/
  | wait
  /-- at the head of the loop over the events -/
  | next
  /-- about to call `read` -/
  | reading (p : Pass)
  /-- about to call `epoll.erase_fd` -/
  | erasing (p : Pass)
  /-- about to increment `send_queue_len` -/
  | counting (p : Pass)
  /-- about to call `loop->defer` -/
  | deferring (p : Pass)
  deriving DecidableEq, Repr

namespace WatcherPhase

/-- The pass the watcher is in. -/
def pass? : WatcherPhase → Option Pass
  | wait => none
  | next => none
  | reading p => some p
  | erasing p => some p
  | counting p => some p
  | deferring p => some p

end WatcherPhase

/-- `SystemWatcher` -/
structure SystemWatcher where
  /-- `watched_sockets`, in iteration order; a manager is known by its `socket_id` -/
  watchedSockets : List Nat := []
  /-- `send_queue_len` -/
  sendQueueLen : Nat := 0
  /-- the events of the last `epoll.wait` that are still to be handled -/
  events : List Fd := []
  /-- where the thread stands -/
  phase : WatcherPhase := .wait
  /-- how many passes were started (history) -/
  passes : Nat := 0

/-! ## The managers -/

/-- `SocketStreamData`. The initial values are those of a value-initialised
object, which is what `streams[id]` creates for an id that is missing. -/
structure SocketStreamData where
  /-- `stream_type` -/
  streamType : UInt8 := 0
  /-- `id` -/
  id : UInt32 := 0
  /-- `fd` -/
  fd : Fd := 0
  /-- `buffer`, the packets the client may still send -/
  buffer : UInt32 := bufferCount
  deriving DecidableEq, Repr

/-- `WebSocketManager` -/
structure WebSocketManager where
  /-- `streams` -/
  streams : AList fun _ : UInt32 => SocketStreamData := ∅
  /-- `has_backpressure` -/
  hasBackpressure : Bool := false
  /-- `received_info` -/
  receivedInfo : Bool := false
  /-- `info_valid` -/
  infoValid : Bool := true

/-! ## The thread pool -/

/-- The task `handle_data` submits. -/
structure WriteTask where
  /-- the captured `this` -/
  manager : Nat
  /-- the captured `packet` -/
  packet : WispPacket
  /-- the socket the stream was bound to at submission (history) -/
  sock : Option Nat
  deriving DecidableEq, Repr

/-- Where a worker stands in its task. -/
inductive TaskPhase where
  /-- the task is dequeued and about to take `stream_lock` -/
  | started
  /-- it holds the lock and is about to `poll` -/
  | locked
  /-- it holds the lock and is about to `write` -/
  | polled
  deriving DecidableEq, Repr

/-- A worker that is executing a task. -/
structure Worker where
  /-- the task -/
  task : WriteTask
  /-- where it stands -/
  phase : TaskPhase
  deriving DecidableEq, Repr

/-- The pool: the queue, the workers that are executing a task in the order in
which they dequeued it, and how many workers were lost to undefined behaviour. -/
structure ThreadPool where
  /-- `tasks` -/
  queue : List WriteTask := []
  /-- the busy workers -/
  running : List Worker := []
  /-- the workers that are gone -/
  lost : Nat := 0

namespace ThreadPool

/-- The tasks that are submitted and not finished, in the order of submission. -/
def unfinished (pool : ThreadPool) : List WriteTask :=
  pool.running.map (·.task) ++ pool.queue

/-- The tasks that have not begun, that is, not taken `stream_lock`. -/
def waiting (pool : ThreadPool) : List WriteTask :=
  (pool.running.filter (·.phase = .started)).map (·.task) ++ pool.queue

end ThreadPool

/-! ## The loop thread -/

/-- A CONNECT in progress, past the filter. -/
structure ConnectCall where
  /-- the manager that received it -/
  manager : Nat
  /-- the packet's stream id -/
  streamId : UInt32
  /-- the packet's stream type -/
  streamType : UInt8
  deriving DecidableEq, Repr

/-- Where the loop thread stands. -/
inductive LoopState where
  /-- between two events -/
  | idle
  /-- `open_stream`: about to resolve and call `socket` -/
  | socket (c : ConnectCall)
  /-- `open_stream`: about to call `connect` -/
  | connect (c : ConnectCall) (fd : Fd)
  /-- `handle_connect`: about to call `epoll.push_fd` -/
  | pushFd (c : ConnectCall) (fd : Fd)
  /-- `handle_connect`: about to take the lock and store the stream -/
  | insert (c : ConnectCall) (fd : Fd)
  /-- `force_close`: about to take the lock and list the ids -/
  | forceClose (m : Nat)
  /-- `force_close`: in the loop over the ids, the destructor being next -/
  | closing (m : Nat) (ids : List UInt32)
  /-- deferred closure: about to call `close_stream` -/
  | closeFound (p : Pass) (m : Nat) (streamId : UInt32)
  /-- deferred closure: about to decrement `send_queue_len` -/
  | decrement
  /-- deferred closure: about to compare `send_queue_len` -/
  | check
  /-- deferred closure: in the loop of `update_streams` calls -/
  | sweep (ms : List Nat)
  deriving DecidableEq, Repr

namespace LoopState

/-- The pass whose closure is about to close a stream. -/
def pass? : LoopState → Option Pass
  | closeFound p _ _ => some p
  | _ => none

end LoopState

/-! ## The log -/

/-- Who sent a frame. -/
inductive Origin where
  /-- a handler, or the sweep at the end of a closure -/
  | server
  /-- the deferred closure of a pass, for an entry whose descriptor stood for `sock` -/
  | closure (p : Pass) (sock : Option Nat)
  deriving DecidableEq, Repr

/-- What happened, in order. -/
inductive Event where
  /-- the watcher called `read` -/
  | read (fd : Fd) (r : Read)
  /-- a frame was given to `ws->send` of manager `m` -/
  | sent (m : Nat) (packet : WispPacket) (status : SendStatus) (origin : Origin)
  /-- `handle_connect` stored a stream whose descriptor stands for `sock` -/
  | connected (m : Nat) (streamId : UInt32) (sock : Option Nat)
  /-- a descriptor that stood for `sock` was closed -/
  | closed (fd : Fd) (sock : Option Nat)
  /-- `handle_data` submitted a task -/
  | accepted (t : WriteTask)
  /-- a task took `stream_lock`; `found` tells whether its manager and stream existed -/
  | began (t : WriteTask) (found : Bool)
  /-- a task wrote to a descriptor that stood for `sock`; the kernel took `bytes` -/
  | wrote (t : WriteTask) (sock : Option Nat) (bytes : Bytes)
  deriving DecidableEq, Repr

/-! ## The state -/

/-- The whole program, and the kernel underneath. -/
structure State where
  /-- descriptors and the epoll set -/
  kernel : Kernel
  /-- the manager objects that exist, by `socket_id` -/
  managers : AList fun _ : Nat => WebSocketManager := ∅
  /-- `server.cpp`'s `id` -/
  id : Nat := 0
  /-- the watcher -/
  watcher : SystemWatcher := {}
  /-- the closures given to `loop->defer`, first in first out -/
  deferred : List Pass := []
  /-- the loop thread -/
  loop : LoopState := .idle
  /-- the thread pool -/
  pool : ThreadPool := {}
  /-- what happened so far -/
  log : List Event := []

namespace State

/-- The program at its start. -/
def initial (env : Env) : State := { kernel := Kernel.initial env.pipes0 }

/-- `streams.find(stream_id)` of manager `m`. -/
def stream (s : State) (m : Nat) (streamId : UInt32) : Option SocketStreamData :=
  (s.managers.lookup m).bind fun manager => manager.streams.lookup streamId

/-- The descriptor a stream is bound to. -/
def binding (s : State) (m : Nat) (streamId : UInt32) : Option Fd :=
  (s.stream m streamId).map (·.fd)

/-- The socket a stream is bound to. -/
def boundSock (s : State) (m : Nat) (streamId : UInt32) : Option Nat :=
  (s.binding m streamId).bind s.kernel.sockAt

/-- Whether `stream_lock` of manager `m` can be taken exclusively. -/
def lockFree (s : State) (m : Nat) : Bool :=
  s.pool.running.all fun w => w.phase = .started || w.task.manager ≠ m

/-- The passes whose closure has not run: those that are queued, in order, and
the one the watcher is in. -/
def pendingPasses (s : State) : List Pass := s.deferred ++ s.watcher.phase.pass?.toList

/-- The passes that are not over: the one whose closure is about to close a
stream, and those whose closure has not run. -/
def openPasses (s : State) : List Pass := s.loop.pass?.toList ++ s.pendingPasses

/-- Update a manager in place. -/
def modifyManager (s : State) (m : Nat) (f : WebSocketManager → WebSocketManager) : State :=
  { s with managers := s.managers.modify m f }

/-- Append to the log. -/
def record (s : State) (e : Event) : State := { s with log := s.log ++ [e] }

end State

end Woeful
