import Woeful.State

/-!
# The websocket manager

`WebSocketManager` (`websocketManager.h` and `.cpp`), function by function. All
of it runs on the loop thread, except the task that `handle_data` submits,
whose steps are at the end.

`handle_connect` is cut where the watcher can get in between: the call of
`socket()`, of `connect()`, the registration with epoll, and the insertion into
`streams` are four steps. `force_close` is cut where it gives up `stream_lock`.
Where a function takes the lock exclusively, `State.resume` waits for it.
-/

namespace Woeful

open Memory

/-- A stream after a sweep: an exhausted one gets its credit back. -/
def SocketStreamData.renew (d : SocketStreamData) : SocketStreamData :=
  if d.buffer = 0 then { d with buffer := bufferCount } else d

/-- What one `write` answers. -/
inductive WriteResult where
  /-- the kernel took the first `n` bytes -/
  | accepted (n : Nat)
  /-- `EAGAIN` -/
  | again
  /-- any other error -/
  | error
  deriving DecidableEq, Repr

namespace State

variable (env : Env)

/-! ## Sending -/

/-- What `ws->send` answers to the next frame. -/
def sendStatus (s : State) : SendStatus := env.status s.log.length

/-- `ws->send` of manager `m`'s websocket. -/
def send (s : State) (m : Nat) (packet : WispPacket) (origin : Origin) : State :=
  s.record (.sent m packet (sendStatus env s) origin)

/-- `send_close` -/
def sendClose (s : State) (m : Nat) (reason : UInt8) (streamId : UInt32) (origin : Origin) :
    State :=
  send env s m ⟨packetClose, streamId, ClosePacket.serialize reason⟩ origin

/-- `send_data` -/
def sendData (s : State) (m : Nat) (streamId : UInt32) (data : Bytes) (origin : Origin) :
    SendStatus × State :=
  (sendStatus env s, send env s m ⟨packetData, streamId, data⟩ origin)

/-- `send_continue` -/
def sendContinue (s : State) (m : Nat) (buffer streamId : UInt32) : State :=
  send env s m ⟨packetContinue, streamId, ContinuePacket.serialize buffer⟩ .server

/-! ## Life and death of a manager -/

/-- `WebSocketManager::WebSocketManager`, called by the open handler with `id++`. -/
def construct (s : State) : State :=
  let m := s.id
  let s := { s with id := m + 1, managers := s.managers.insert m {} }
  let s := sendContinue env s m bufferCount 0
  { s with watcher := { s.watcher with
      watchedSockets := m :: s.watcher.watchedSockets.filter (· ≠ m) } }

/-- `close(fd)` -/
def closeFd (s : State) (fd : Fd) : State :=
  State.record { s with kernel := s.kernel.close fd } (.closed fd (s.kernel.sockAt fd))

/-- `WebSocketManager::close_stream`. Where the id is missing, `operator[]` makes
an entry with descriptor 0 first. -/
def closeStream (s : State) (m : Nat) (streamId : UInt32) (removePoll : Bool) (origin : Origin) :
    State :=
  let fd := ((s.stream m streamId).getD {}).fd
  let s := sendClose env s m 0x02 streamId origin
  let s := if removePoll then { s with kernel := s.kernel.eraseFd fd } else s
  let s := closeFd s fd
  s.modifyManager m fun manager => { manager with streams := manager.streams.erase streamId }

/-- `force_close`, up to its first lock: called by the close handler. -/
def forceClose (s : State) (m : Nat) : State :=
  { s.modifyManager m fun manager => { manager with hasBackpressure := false } with
    loop := .forceClose m }

/-- `force_close`: list the ids, under the lock. -/
def listIds (s : State) (m : Nat) : State :=
  { s with loop := .closing m ((s.managers.lookup m).elim [] (·.streams.keys)) }

/-- `force_close`: close the next stream of the list. -/
def closeNext (s : State) (m : Nat) (streamId : UInt32) (ids : List UInt32) : State :=
  { closeStream env s m streamId true .server with loop := .closing m ids }

/-- `WebSocketManager::~WebSocketManager`, and the end of the close handler. -/
def destruct (s : State) (m : Nat) : State :=
  { s with
    managers := s.managers.erase m
    watcher := { s.watcher with watchedSockets := s.watcher.watchedSockets.filter (· ≠ m) }
    loop := .idle }

/-! ## Credit -/

/-- `has_backpressure` of manager `m`. -/
def hasBackpressure (s : State) (m : Nat) : Bool :=
  (s.managers.lookup m).elim false (·.hasBackpressure)

/-- Store to `has_backpressure`. -/
def setBackpressure (s : State) (m : Nat) (b : Bool) : State :=
  s.modifyManager m fun manager => { manager with hasBackpressure := b }

/-- Store to `streams[stream_id].buffer`. -/
def setBuffer (s : State) (m : Nat) (streamId : UInt32) (buffer : UInt32) : State :=
  s.modifyManager m fun manager =>
    { manager with streams := manager.streams.modify streamId ({ · with buffer := buffer }) }

/-- `update_streams`: one CONTINUE for every exhausted stream, in iteration order. -/
def updateStreams (s : State) (m : Nat) : State :=
  if hasBackpressure s m || s.watcher.sendQueueLen > maxQueue then s
  else
    match s.managers.lookup m with
    | none => s
    | some manager =>
      let exhausted := manager.streams.entries.filter (·.2.buffer = 0)
      let s := exhausted.foldl (fun s e => sendContinue env s m bufferCount e.1) s
      s.modifyManager m fun manager =>
        { manager with streams := manager.streams.mapWithKey fun _ => SocketStreamData.renew }

/-! ## Receiving -/

/-- The end of a failed CONNECT: `receive` sends CLOSE. -/
def refuse (s : State) (c : ConnectCall) : State :=
  sendClose env { s with loop := .idle } c.manager 0x41 c.streamId .server

/-- `handle_connect` and `open_stream`, up to the call of `socket()`. -/
def handleConnect (s : State) (m : Nat) (packet : WispPacket) : Except Fault State := do
  let connectPacket ← ConnectPacket.parse packet.data (UInt64.ofNat packet.data.length)
  let c : ConnectCall := ⟨m, packet.streamId, connectPacket.streamType⟩
  if SystemInterface.refusesUnread env.conf connectPacket.streamType
      connectPacket.destinationPort then
    return refuse env s c
  else
    -- the filter compares the hostname, or the resolver gets it
    let hostname ← cString connectPacket.destinationHostname
    if SystemInterface.passesFilter env.conf hostname connectPacket.streamType
        connectPacket.destinationPort then
      return { s with loop := .socket c }
    else
      return refuse env s c

/-- `open_stream`: resolve the name and make a socket; `none` where either fails. -/
def openSocket (s : State) (c : ConnectCall) : Option Fd → Option State
  | none => some (refuse env s c)
  | some fd =>
    if hfd : s.kernel.files fd = none then
      some { s with
        kernel := s.kernel.socket fd hfd (c.manager, c.streamId)
        loop := .connect c fd }
    else none

/-- `open_stream`: `connect`, and `close(fd)` where it fails. -/
def connectSocket (s : State) (c : ConnectCall) (fd : Fd) (ok : Bool) : State :=
  if ok then { s with loop := .pushFd c fd } else refuse env (closeFd s fd) c

/-- `handle_connect`: register the descriptor. -/
def pushFd (s : State) (c : ConnectCall) (fd : Fd) (ok : Bool) : State :=
  { s with kernel := s.kernel.pushFd fd ok, loop := .insert c fd }

/-- `handle_connect`: `streams[stream_id] = stream_data`, whatever was there. -/
def insertStream (s : State) (c : ConnectCall) (fd : Fd) : State :=
  let data : SocketStreamData := { streamType := c.streamType, id := c.streamId, fd := fd }
  let s := s.modifyManager c.manager fun manager =>
    { manager with streams := manager.streams.insert c.streamId data }
  { s.record (.connected c.manager c.streamId (s.kernel.sockAt fd)) with loop := .idle }

/-- `threadpool->submit_task` -/
def submitTask (s : State) (t : WriteTask) : State :=
  { s with pool := { s.pool with queue := s.pool.queue ++ [t] } }.record (.accepted t)

/-- `handle_data`; the result is the stream's `buffer`, `none` where there is no stream. -/
def handleData (s : State) (m : Nat) (packet : WispPacket) : Option UInt32 × State :=
  match s.stream m packet.streamId with
  | none => (none, s)
  | some d =>
    let s := submitTask s ⟨m, packet, s.boundSock m packet.streamId⟩
    if d.streamType ≠ 0x02 then
      let buffer := d.buffer - 1
      if buffer = 0 ∧ hasBackpressure s m = true ∧ s.watcher.sendQueueLen < maxQueue then
        let s := setBuffer s m packet.streamId bufferCount
        (some bufferCount, sendContinue env s m bufferCount packet.streamId)
      else (some buffer, setBuffer s m packet.streamId buffer)
    else (some d.buffer, s)

/-- `receive`: anything but INFO ends the time in which an INFO would count. -/
def endHandshake (s : State) (m : Nat) : State :=
  s.modifyManager m fun manager =>
    if !manager.receivedInfo && manager.infoValid then { manager with infoValid := false }
    else manager

/-- `receive` -/
def receive (s : State) (m : Nat) (view : Bytes) : Except Fault State := do
  let packet ← WispPacket.parse view (UInt64.ofNat view.length)
  if packet.packetType = packetInfo then
    return s
  else
    let s := endHandshake s m
    if packet.packetType = packetConnect then
      handleConnect env s m packet
    else if packet.packetType = packetData then
      return (handleData env s m packet).2
    else
      -- CLOSE does nothing, nor does an unknown type
      return s

/-- The drain handler. -/
def drain (s : State) (m : Nat) : State := updateStreams env (setBackpressure s m false) m

/-! ## The write task -/

/-- Change what the busy workers are doing. -/
def setRunning (s : State) (running : List Worker) : State :=
  { s with pool := { s.pool with running := running } }

/-- A free worker takes the oldest task of the queue. -/
def dequeue (s : State) : Option State :=
  match s.pool.queue with
  | [] => none
  | t :: queue =>
    if s.pool.running.length + s.pool.lost < env.threadCount then
      some { s with pool := { s.pool with
        queue := queue, running := s.pool.running ++ [⟨t, .started⟩] } }
    else none

/-- The task takes `stream_lock`. Where its manager or its stream is gone the
program has no defined behaviour: the worker is lost. -/
def beginTask (s : State) (i : Nat) : Option State :=
  match s.pool.running[i]? with
  | some ⟨t, .started⟩ =>
    if (s.stream t.manager t.packet.streamId).isSome then
      some ((setRunning s (s.pool.running.set i ⟨t, .locked⟩)).record (.began t true))
    else
      some ({ s with pool := { s.pool with
        running := s.pool.running.eraseIdx i, lost := s.pool.lost + 1 } }.record (.began t false))
  | _ => none

/-- The task polls; where `poll` fails, it ends. -/
def pollTask (s : State) (i : Nat) (ok : Bool) : Option State :=
  match s.pool.running[i]? with
  | some ⟨t, .locked⟩ =>
    if ok then some (setRunning s (s.pool.running.set i ⟨t, .polled⟩))
    else some (setRunning s (s.pool.running.eraseIdx i))
  | _ => none

/-- The task writes; it polls again after `EAGAIN` and ends otherwise. -/
def writeTask (s : State) (i : Nat) (res : WriteResult) : Option State :=
  match s.pool.running[i]? with
  | some ⟨t, .polled⟩ =>
    match res with
    | .accepted n =>
      if n ≤ t.packet.data.length then
        some ((setRunning s (s.pool.running.eraseIdx i)).record
          (.wrote t (s.boundSock t.manager t.packet.streamId) (t.packet.data.take n)))
      else none
    | .again => some (setRunning s (s.pool.running.set i ⟨t, .locked⟩))
    | .error => some (setRunning s (s.pool.running.eraseIdx i))
  | _ => none

end State

end Woeful
