import Woeful.WebSocketManager

/-!
# The watcher

`SystemWatcher::watch` and the closure it defers. The watcher runs on a thread
of its own and shares with the loop thread only the epoll set, `send_queue_len`
and the queue of closures; the closure runs on the loop thread and finds the
stream again by the *number* of the descriptor.

The closure holds `watched_sockets_lock` from its start to its end, and only the
loop thread changes `streams`, so all its sends are one step. It gives other
threads a chance where it waits for a `stream_lock` (`close_stream`) and where
it reads `send_queue_len`, which the watcher increments meanwhile.
-/

namespace Woeful

namespace State

variable (env : Env)

/-! ## The watcher thread -/

/-- Move the watcher. -/
def setPhase (s : State) (phase : WatcherPhase) : State :=
  { s with watcher := { s.watcher with phase := phase } }

/-- `epoll.wait` returns some of the registered descriptors, each once. -/
def watchWait (s : State) (events : List Fd) : Option State :=
  if s.watcher.phase = .wait ∧ events.Nodup ∧ events.length ≤ bufferCount.toNat ∧
      ∀ fd ∈ events, fd ∈ s.kernel.epoll then
    some { s with watcher := { s.watcher with events := events, phase := .next } }
  else none

/-- The head of the loop over the events: the wake pipe is passed over. -/
def watchNext (s : State) : Option State :=
  match s.watcher.phase, s.watcher.events with
  | .next, [] => some (s.setPhase .wait)
  | .next, fd :: events =>
    if fd = env.pipes0 then
      some { s with watcher := { s.watcher with events := events } }
    else
      some { s with watcher := { s.watcher with
        events := events
        phase := .reading (Pass.start fd s.watcher.passes)
        passes := s.watcher.passes + 1 } }
  | _, _ => none

/-- Where the watcher goes after a read. -/
def afterRead (p : Pass) : ReadResult → WatcherPhase
  | .bytes _ => if p.combinedBuffer.length > maxWsFrame then .counting p else .reading p
  | .eof => .erasing p
  | .again => .counting p
  | .error => .erasing p

/-- One turn of the read loop. -/
def watchRead (s : State) (result : ReadResult) : Option State :=
  match s.watcher.phase with
  | .reading p =>
    if result.possible then
      let r : Read := ⟨s.kernel.sockAt p.fd, result⟩
      some ((s.setPhase (afterRead (p.read r) result)).record (.read p.fd r))
    else none
  | _ => none

/-- `epoll.erase_fd`, after a read that closes. -/
def watchErase (s : State) : Option State :=
  match s.watcher.phase with
  | .erasing p => some { s.setPhase (.counting p) with kernel := s.kernel.eraseFd p.fd }
  | _ => none

/-- `send_queue_len++` -/
def watchCount (s : State) : Option State :=
  match s.watcher.phase with
  | .counting p => some { s with watcher := { s.watcher with
      sendQueueLen := s.watcher.sendQueueLen + 1, phase := .deferring p } }
  | _ => none

/-- `loop->defer` -/
def watchDefer (s : State) : Option State :=
  match s.watcher.phase with
  | .deferring p => some { s.setPhase .next with deferred := s.deferred ++ [p] }
  | _ => none

/-! ## The deferred closure -/

/-- The inner loop of the search: the streams of manager `m` whose descriptor has
the number `fd`. -/
def holdersOf (s : State) (fd : Fd) (m : Nat) : List (Nat × UInt32) :=
  match s.managers.lookup m with
  | none => []
  | some manager => (manager.streams.entries.filter (·.2.fd = fd)).map fun e => (m, e.1)

/-- The search of the closure: all streams whose descriptor has the number `fd`,
in iteration order. -/
def holders (s : State) (fd : Fd) : List (Nat × UInt32) :=
  s.watcher.watchedSockets.flatMap (s.holdersOf fd)

/-- The body of the inner loop, for an entry that was found. -/
def deliver (s : State) (p : Pass) (h : Nat × UInt32) : State :=
  let ret := s.sendData env h.1 h.2 p.combinedBuffer (.closure p (s.boundSock h.1 h.2))
  if ret.1 = .backpressure then ret.2.setBackpressure h.1 true else ret.2

/-- What the closure does after its sends: it closes the last entry it found. -/
def afterDeliver (p : Pass) (found : List (Nat × UInt32)) : LoopState :=
  match found.getLast? with
  | none => .decrement
  | some h => if p.toClose then .closeFound p h.1 h.2 else .decrement

/-- The oldest closure runs, up to its `close_stream`. -/
def runDeferred (s : State) : Option State :=
  match s.deferred with
  | [] => none
  | p :: rest =>
    let found := s.holders p.fd
    let s := found.foldl (fun s h => deliver env s p h) { s with deferred := rest }
    some { s with loop := afterDeliver p found }

/-- The closure closes the stream it found; the watcher took the descriptor out
of the epoll set already. -/
def closeFound (s : State) (p : Pass) (m : Nat) (streamId : UInt32) : State :=
  { s.closeStream env m streamId false (.closure p (s.boundSock m streamId)) with
    loop := .decrement }

/-- `send_queue_len--` -/
def decrementQueue (s : State) : State :=
  { s with
    watcher := { s.watcher with sendQueueLen := s.watcher.sendQueueLen - 1 }
    loop := .check }

/-- `if (send_queue_len < MAX_QUEUE)` -/
def checkQueue (s : State) : State :=
  { s with
    loop := if s.watcher.sendQueueLen < maxQueue then .sweep s.watcher.watchedSockets else .idle }

/-- `update_streams` of the next manager, or the end of the closure. -/
def sweepNext (s : State) : List Nat → State
  | [] => { s with loop := .idle }
  | m :: ms => { s.updateStreams env m with loop := .sweep ms }

end State

end Woeful
