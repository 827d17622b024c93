import Woeful.Lib.Run
import Woeful.SystemWatcher

/-!
# The server

The handlers of `server.cpp` and the interleaving: a `Label` names the thread
that moves and what the kernel or the network answers it, and `step` is what
happens. A handler starts only when the loop thread is between two events, and
only for a websocket that is open; everything else of the program may move at
any time.

Besides the threads there is one more label, `rehash`: the iteration order of
an `unordered_map` is not specified, so it may change whenever the loop thread
is between two events.
-/

namespace Woeful

open Memory Transition

/-- `.maxPayloadLength`: uWS delivers no longer message. -/
abbrev maxPayloadLength : Nat := 100 * 1024 * 1024

/-- A step of the loop thread. -/
inductive LoopLabel where
  /-- a websocket opens -/
  | opened
  /-- a message arrives -/
  | message (m : Nat) (view : Bytes)
  /-- a websocket has drained -/
  | drain (m : Nat)
  /-- a websocket closes -/
  | close (m : Nat)
  /-- the oldest deferred closure runs -/
  | deferred
  /-- name resolution and `socket()` return -/
  | socket (fd : Option Fd)
  /-- `connect()` returns -/
  | connect (ok : Bool)
  /-- `epoll_ctl` returns -/
  | pushFd (ok : Bool)
  /-- the handler or closure goes on -/
  | resume
  deriving DecidableEq, Repr

/-- A step of the watcher thread. -/
inductive WatchLabel where
  /-- `epoll_wait` returns -/
  | wait (events : List Fd)
  /-- the next event -/
  | next
  /-- `read` returns -/
  | read (result : ReadResult)
  /-- `epoll.erase_fd` -/
  | erase
  /-- `send_queue_len++` -/
  | count
  /-- `loop->defer` -/
  | defer
  deriving DecidableEq, Repr

/-- A step of a worker. -/
inductive WorkerLabel where
  /-- a free worker takes a task -/
  | dequeue
  /-- the `i`-th busy worker takes the lock -/
  | begin (i : Nat)
  /-- its `poll` returns -/
  | poll (i : Nat) (ok : Bool)
  /-- its `write` returns -/
  | write (i : Nat) (res : WriteResult)
  deriving DecidableEq, Repr

/-- Who moves, and what it is answered. -/
inductive Label where
  /-- the loop thread -/
  | loop (l : LoopLabel)
  /-- the watcher thread -/
  | watch (l : WatchLabel)
  /-- a worker -/
  | worker (l : WorkerLabel)
  /-- manager `m`'s `streams` changes its iteration order -/
  | rehash (m : Nat) (streams : AList fun _ : UInt32 => SocketStreamData)
  /-- `watched_sockets` changes its iteration order -/
  | rehashSockets (ms : List Nat)

namespace State

variable (env : Env)

/-- The loop thread has taken `stream_lock` of manager `m` exclusively, and goes on to `t`. -/
def locked (s : State) (m : Nat) (t : State) : Option State :=
  if s.lockFree m then some t else none

/-- The loop thread goes on where nothing but a lock is awaited. -/
def resume (s : State) : Option State :=
  match s.loop with
  | .insert c fd => s.locked c.manager (s.insertStream c fd)
  | .forceClose m => s.locked m (s.listIds m)
  | .closing m (streamId :: ids) => s.locked m (s.closeNext env m streamId ids)
  | .closing m [] => some (s.destruct m)
  | .closeFound p m streamId => s.locked m (s.closeFound env p m streamId)
  | .decrement => some s.decrementQueue
  | .check => some s.checkQueue
  | .sweep ms => some (s.sweepNext env ms)
  | _ => none

/-- A step of the loop thread. -/
def loopStep (s : State) : LoopLabel → Option State
  | .opened => if s.loop = .idle then some (s.construct env) else none
  | .message m view =>
    if s.loop = .idle ∧ m ∈ s.managers then (s.receive env m view).toOption else none
  | .drain m => if s.loop = .idle ∧ m ∈ s.managers then some (s.drain env m) else none
  | .close m => if s.loop = .idle ∧ m ∈ s.managers then some (s.forceClose m) else none
  | .deferred => if s.loop = .idle then s.runDeferred env else none
  | .socket fd =>
    match s.loop with
    | .socket c => s.openSocket env c fd
    | _ => none
  | .connect ok =>
    match s.loop with
    | .connect c fd => some (s.connectSocket env c fd ok)
    | _ => none
  | .pushFd ok =>
    match s.loop with
    | .pushFd c fd => some (s.pushFd c fd ok)
    | _ => none
  | .resume => s.resume env

/-- A step of the watcher thread. -/
def watchStep (s : State) : WatchLabel → Option State
  | .wait events => s.watchWait events
  | .next => s.watchNext env
  | .read result => s.watchRead result
  | .erase => s.watchErase
  | .count => s.watchCount
  | .defer => s.watchDefer

/-- A step of a worker. -/
def workerStep (s : State) : WorkerLabel → Option State
  | .dequeue => s.dequeue env
  | .begin i => s.beginTask i
  | .poll i ok => s.pollTask i ok
  | .write i res => s.writeTask i res

/-- Manager `m`'s `streams` changes its iteration order. -/
def rehash (s : State) (m : Nat) (streams : AList fun _ : UInt32 => SocketStreamData) :
    Option State :=
  match s.managers.lookup m with
  | none => none
  | some manager =>
    if s.loop = .idle ∧ streams.entries.Perm manager.streams.entries then
      some (s.modifyManager m fun manager => { manager with streams := streams })
    else none

/-- `watched_sockets` changes its iteration order. -/
def rehashSockets (s : State) (ms : List Nat) : Option State :=
  if s.loop = .idle ∧ ms.Perm s.watcher.watchedSockets then
    some { s with watcher := { s.watcher with watchedSockets := ms } }
  else none

/-- One step of the program. -/
def step (s : State) : Label → Option State
  | .loop l => s.loopStep env l
  | .watch l => s.watchStep env l
  | .worker l => s.workerStep env l
  | .rehash m streams => s.rehash m streams
  | .rehashSockets ms => s.rehashSockets ms

end State

/-- The program: `start_wisp_server` with the watcher thread and the pool. -/
def server (env : Env) : System State Label where
  init := State.initial env
  step := State.step env

/-! ## Runs of a handler

The labels of a whole handler or pass, to write runs with. -/

/-- A CONNECT to a TCP target that succeeds, with descriptor `fd`. -/
def connectLabels (m : Nat) (id : UInt32) (fd : Fd) : List Label :=
  [.loop (.message m (WispPacket.serialize ⟨packetConnect, id, [0x01, 80, 0, 97]⟩)),
    .loop (.socket (some fd)), .loop (.connect true), .loop (.pushFd true), .loop .resume]

/-- A DATA. -/
def dataLabel (m : Nat) (id : UInt32) (payload : Bytes) : Label :=
  .loop (.message m (WispPacket.serialize ⟨packetData, id, payload⟩))

/-- A pass of the watcher over `fd`, from `epoll.wait` to `loop->defer`. -/
def passLabels (fd : Fd) (results : List ReadResult) : List Label :=
  [.watch (.wait [fd]), .watch .next] ++ results.map (fun r => .watch (.read r)) ++
    (if results.any ReadResult.closes then [.watch .erase] else []) ++
    [.watch .count, .watch .defer, .watch .next]

/-- The close handler of a websocket with `n` streams. -/
def closeLabels (m n : Nat) : List Label :=
  .loop (.close m) :: List.replicate (n + 2) (.loop .resume)

end Woeful
