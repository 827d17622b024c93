import Woeful.Server

/-!
# What a step can do

One lemma per function of the model, saying everything the function does; the
invariants are proved from these and do not unfold the functions again.

The frame of a step is `SameTable`: descriptors, managers and bindings are as
they were. Every step of the watcher and of the workers has it, and so have the
handlers that only move credit around. The others are `construct`, `destruct`,
the four steps of a CONNECT, and `closeStream`, each with a lemma of its own.
-/

namespace Woeful

open Memory

/-! ## Reading a state after an update -/

namespace State

variable {env : Env} {s t : State} {m m' : Nat} {streamId streamId' : UInt32}

theorem lookup_modifyManager_self (f : WebSocketManager → WebSocketManager) :
    (s.modifyManager m f).managers.lookup m = (s.managers.lookup m).map f :=
  AList.lookup_modify_self m f s.managers

theorem lookup_modifyManager_ne (h : m' ≠ m) (f : WebSocketManager → WebSocketManager) :
    (s.modifyManager m f).managers.lookup m' = s.managers.lookup m' :=
  AList.lookup_modify_ne h f s.managers

@[simp] theorem mem_modifyManager {f : WebSocketManager → WebSocketManager} :
    m' ∈ (s.modifyManager m f).managers ↔ m' ∈ s.managers :=
  AList.mem_modify

theorem stream_modifyManager_ne (h : m' ≠ m) (f : WebSocketManager → WebSocketManager) :
    (s.modifyManager m f).stream m' streamId = s.stream m' streamId := by
  rw [stream, stream, lookup_modifyManager_ne h]

theorem stream_modifyManager_self (f : WebSocketManager → WebSocketManager) :
    (s.modifyManager m f).stream m streamId =
      (s.managers.lookup m).bind fun manager => (f manager).streams.lookup streamId := by
  rw [stream, lookup_modifyManager_self]
  cases s.managers.lookup m <;> rfl

/-- An update that leaves every descriptor of the manager where it is. -/
theorem binding_modifyManager {f : WebSocketManager → WebSocketManager}
    (hf : ∀ manager id, ((f manager).streams.lookup id).map (·.fd) =
      (manager.streams.lookup id).map (·.fd)) :
    (s.modifyManager m f).binding = s.binding := by
  funext m' id
  by_cases h : m' = m
  · subst h
    rw [binding, binding, stream_modifyManager_self, stream]
    cases s.managers.lookup m' with
    | none => rfl
    | some manager => exact hf manager id
  · rw [binding, binding, stream_modifyManager_ne h]

theorem binding_of_managers (h : t.managers = s.managers) : t.binding = s.binding := by
  funext m' id
  rw [binding, binding, stream, stream, h]

theorem binding_eq_some {fd : Fd} :
    s.binding m streamId = some fd ↔ ∃ d, s.stream m streamId = some d ∧ d.fd = fd := by
  rw [binding, Option.map_eq_some_iff]

theorem binding_ne_none : s.binding m streamId ≠ none ↔ s.stream m streamId ≠ none := by
  rw [binding]
  cases s.stream m streamId <;> simp

theorem boundSock_eq_some {k : Nat} : s.boundSock m streamId = some k ↔
    ∃ fd, s.binding m streamId = some fd ∧ s.kernel.sockAt fd = some k := by
  rw [boundSock, Option.bind_eq_some_iff]

theorem mem_managers_of_binding {fd : Fd} (h : s.binding m streamId = some fd) :
    m ∈ s.managers := by
  obtain ⟨d, hd, -⟩ := binding_eq_some.mp h
  rw [stream, Option.bind_eq_some_iff] at hd
  obtain ⟨manager, hm, -⟩ := hd
  exact AList.mem_iff_lookup.mpr ⟨manager, hm⟩

end State

/-! ## The frame -/

/-- `t` has the descriptors, the managers and the bindings of `s`. -/
structure SameTable (s t : State) : Prop where
  /-- the descriptor table is the same -/
  files : t.kernel.files = s.kernel.files
  /-- no socket was made -/
  socks : t.kernel.socks = s.kernel.socks
  /-- every stream is bound as it was -/
  binding : t.binding = s.binding
  /-- the same managers exist -/
  alive : ∀ m, m ∈ t.managers ↔ m ∈ s.managers
  /-- the same managers are watched -/
  watched : t.watcher.watchedSockets = s.watcher.watchedSockets
  /-- no websocket was opened -/
  id : t.id = s.id

namespace SameTable

variable {s t u : State}

theorem refl (s : State) : SameTable s s := ⟨rfl, rfl, rfl, fun _ => Iff.rfl, rfl, rfl⟩

theorem trans (h : SameTable s t) (h' : SameTable t u) : SameTable s u where
  files := h'.files.trans h.files
  socks := h'.socks.trans h.socks
  binding := h'.binding.trans h.binding
  alive m := (h'.alive m).trans (h.alive m)
  watched := h'.watched.trans h.watched
  id := h'.id.trans h.id

theorem sockAt (h : SameTable s t) : t.kernel.sockAt = s.kernel.sockAt :=
  Kernel.sockAt_congr h.files

theorem boundSock (h : SameTable s t) : t.boundSock = s.boundSock := by
  funext m id
  rw [State.boundSock, State.boundSock, h.binding, h.sockAt]

/-- A step that leaves kernel, managers, watched sockets and `id` alone. -/
theorem of_eq (hk : t.kernel = s.kernel) (hm : t.managers = s.managers)
    (hw : t.watcher.watchedSockets = s.watcher.watchedSockets) (hid : t.id = s.id) :
    SameTable s t where
  files := by rw [hk]
  socks := by rw [hk]
  binding := State.binding_of_managers hm
  alive m := by rw [hm]
  watched := hw
  id := hid

/-- An update of a manager that leaves its descriptors alone. -/
theorem modifyManager (s : State) (m : Nat) {f : WebSocketManager → WebSocketManager}
    (hf : ∀ manager id, ((f manager).streams.lookup id).map (·.fd) =
      (manager.streams.lookup id).map (·.fd)) :
    SameTable s (s.modifyManager m f) where
  files := rfl
  socks := rfl
  binding := State.binding_modifyManager hf
  alive _ := State.mem_modifyManager
  watched := rfl
  id := rfl

end SameTable

/-! ## The watcher -/

/-- The moves of the watcher thread. -/
inductive WatchMove (env : Env) (s : State) : State → Prop where
  /-- `epoll.wait` returned -/
  | wait {events : List Fd} : s.watcher.phase = .wait → events.Nodup →
      (∀ fd ∈ events, fd ∈ s.kernel.epoll) →
      WatchMove env s { s with watcher := { s.watcher with events := events, phase := .next } }
  /-- no event is left -/
  | done : s.watcher.phase = .next → s.watcher.events = [] → WatchMove env s (s.setPhase .wait)
  /-- the wake pipe is passed over -/
  | skip {events : List Fd} : s.watcher.phase = .next →
      s.watcher.events = env.pipes0 :: events →
      WatchMove env s { s with watcher := { s.watcher with events := events } }
  /-- a pass starts -/
  | start {fd : Fd} {events : List Fd} : s.watcher.phase = .next →
      s.watcher.events = fd :: events → fd ≠ env.pipes0 →
      WatchMove env s { s with watcher := { s.watcher with
        events := events
        phase := .reading (Pass.start fd s.watcher.passes)
        passes := s.watcher.passes + 1 } }
  /-- a read returned -/
  | read {p : Pass} {result : ReadResult} : s.watcher.phase = .reading p →
      result.possible = true →
      WatchMove env s
        ((s.setPhase (State.afterRead (p.read ⟨s.kernel.sockAt p.fd, result⟩) result)).record
          (.read p.fd ⟨s.kernel.sockAt p.fd, result⟩))
  /-- the descriptor is taken out of the epoll set -/
  | erase {p : Pass} : s.watcher.phase = .erasing p →
      WatchMove env s { s.setPhase (.counting p) with kernel := s.kernel.eraseFd p.fd }
  /-- `send_queue_len` is incremented -/
  | count {p : Pass} : s.watcher.phase = .counting p →
      WatchMove env s { s with watcher := { s.watcher with
        sendQueueLen := s.watcher.sendQueueLen + 1, phase := .deferring p } }
  /-- the closure is queued -/
  | defer {p : Pass} : s.watcher.phase = .deferring p →
      WatchMove env s { s.setPhase .next with deferred := s.deferred ++ [p] }

theorem watchStep_cases {env : Env} {s t : State} {l : WatchLabel}
    (h : s.watchStep env l = some t) : WatchMove env s t := by
  cases l with
  | wait events =>
    rw [State.watchStep, State.watchWait] at h
    split at h
    · rename_i hg
      obtain rfl := Option.some.inj h
      exact .wait hg.1 hg.2.1 hg.2.2.2
    · cases h
  | next =>
    rw [State.watchStep, State.watchNext] at h
    split at h
    · rename_i hp he
      obtain rfl := Option.some.inj h
      exact .done hp he
    · rename_i fd events hp he
      split at h
      · rename_i hfd
        obtain rfl := Option.some.inj h
        exact .skip hp (hfd ▸ he)
      · rename_i hfd
        obtain rfl := Option.some.inj h
        exact .start hp he hfd
    · cases h
  | read result =>
    rw [State.watchStep, State.watchRead] at h
    split at h
    · rename_i p hp
      split at h
      · rename_i hr
        obtain rfl := Option.some.inj h
        exact .read hp hr
      · cases h
    · cases h
  | erase =>
    rw [State.watchStep, State.watchErase] at h
    split at h
    · rename_i p hp
      obtain rfl := Option.some.inj h
      exact .erase hp
    · cases h
  | count =>
    rw [State.watchStep, State.watchCount] at h
    split at h
    · rename_i p hp
      obtain rfl := Option.some.inj h
      exact .count hp
    · cases h
  | defer =>
    rw [State.watchStep, State.watchDefer] at h
    split at h
    · rename_i p hp
      obtain rfl := Option.some.inj h
      exact .defer hp
    · cases h

/-- A pass goes on after a read. -/
theorem State.pass?_afterRead (p : Pass) (result : ReadResult) :
    (State.afterRead p result).pass? = some p := by
  cases result with
  | bytes buf =>
    rw [State.afterRead]
    split <;> rfl
  | _ => rfl

namespace WatchMove

variable {env : Env} {s t : State}

/-- The watcher binds nothing and closes nothing. -/
theorem sameTable (h : WatchMove env s t) : SameTable s t := by
  cases h with
  | erase hp => exact ⟨rfl, rfl, rfl, fun _ => Iff.rfl, rfl, rfl⟩
  | _ => exact SameTable.of_eq rfl rfl rfl rfl

theorem loop (h : WatchMove env s t) : t.loop = s.loop := by
  cases h <;> rfl

theorem managers (h : WatchMove env s t) : t.managers = s.managers := by
  cases h <;> rfl

theorem pool (h : WatchMove env s t) : t.pool = s.pool := by
  cases h <;> rfl

end WatchMove

/-! ## The workers -/

/-- The moves of the workers. -/
inductive WorkerMove (env : Env) (s : State) : WorkerLabel → State → Prop where
  /-- a task is dequeued -/
  | dequeue {t : WriteTask} {queue : List WriteTask} : s.pool.queue = t :: queue →
      s.pool.running.length + s.pool.lost < env.threadCount →
      WorkerMove env s .dequeue { s with pool := { s.pool with
        queue := queue, running := s.pool.running ++ [⟨t, .started⟩] } }
  /-- a task takes the lock and finds its stream -/
  | begin {i : Nat} {t : WriteTask} {d : SocketStreamData} :
      s.pool.running[i]? = some ⟨t, .started⟩ →
      s.stream t.manager t.packet.streamId = some d →
      WorkerMove env s (.begin i)
        ((s.setRunning (s.pool.running.set i ⟨t, .locked⟩)).record (.began t true))
  /-- a task finds its manager or its stream gone -/
  | fault {i : Nat} {t : WriteTask} : s.pool.running[i]? = some ⟨t, .started⟩ →
      s.stream t.manager t.packet.streamId = none →
      WorkerMove env s (.begin i) (State.record { s with pool := { s.pool with
        running := s.pool.running.eraseIdx i, lost := s.pool.lost + 1 } } (.began t false))
  /-- `poll` returned -/
  | poll {i : Nat} {t : WriteTask} : s.pool.running[i]? = some ⟨t, .locked⟩ →
      WorkerMove env s (.poll i true) (s.setRunning (s.pool.running.set i ⟨t, .polled⟩))
  /-- `poll` failed, and the task ends -/
  | pollFail {i : Nat} {t : WriteTask} : s.pool.running[i]? = some ⟨t, .locked⟩ →
      WorkerMove env s (.poll i false) (s.setRunning (s.pool.running.eraseIdx i))
  /-- the kernel took bytes, and the task ends -/
  | write {i n : Nat} {t : WriteTask} : s.pool.running[i]? = some ⟨t, .polled⟩ →
      n ≤ t.packet.data.length →
      WorkerMove env s (.write i (.accepted n))
        ((s.setRunning (s.pool.running.eraseIdx i)).record
          (.wrote t (s.boundSock t.manager t.packet.streamId) (t.packet.data.take n)))
  /-- a task polls again after `EAGAIN` -/
  | again {i : Nat} {t : WriteTask} : s.pool.running[i]? = some ⟨t, .polled⟩ →
      WorkerMove env s (.write i .again) (s.setRunning (s.pool.running.set i ⟨t, .locked⟩))
  /-- `write` failed, and the task ends -/
  | writeFail {i : Nat} {t : WriteTask} : s.pool.running[i]? = some ⟨t, .polled⟩ →
      WorkerMove env s (.write i .error) (s.setRunning (s.pool.running.eraseIdx i))

theorem workerStep_cases {env : Env} {s t : State} {l : WorkerLabel}
    (h : s.workerStep env l = some t) : WorkerMove env s l t := by
  cases l with
  | dequeue =>
    rw [State.workerStep, State.dequeue] at h
    split at h
    · cases h
    · rename_i hq
      split at h
      · rename_i hlt
        obtain rfl := Option.some.inj h
        exact .dequeue hq hlt
      · cases h
  | begin i =>
    rw [State.workerStep, State.beginTask] at h
    split at h
    · rename_i t' hi
      split at h
      · rename_i hs
        obtain ⟨d, hd⟩ := Option.isSome_iff_exists.mp hs
        obtain rfl := Option.some.inj h
        exact .begin hi hd
      · rename_i hs
        obtain rfl := Option.some.inj h
        exact .fault hi (by simpa using hs)
    · cases h
  | poll i ok =>
    rw [State.workerStep, State.pollTask] at h
    split at h
    · rename_i t' hi
      cases ok with
      | true =>
        obtain rfl := Option.some.inj h
        exact .poll hi
      | false =>
        obtain rfl := Option.some.inj h
        exact .pollFail hi
    · cases h
  | write i res =>
    rw [State.workerStep, State.writeTask] at h
    split at h
    · rename_i t' hi
      cases res with
      | accepted n =>
        rw [Option.ite_none_right_eq_some] at h
        obtain ⟨hn, h⟩ := h
        obtain rfl := Option.some.inj h
        exact .write hi hn
      | again =>
        obtain rfl := Option.some.inj h
        exact .again hi
      | error =>
        obtain rfl := Option.some.inj h
        exact .writeFail hi
    · cases h

namespace WorkerMove

variable {env : Env} {s t : State} {l : WorkerLabel}

/-- The workers change the pool and the log, nothing else. -/
theorem frame (h : WorkerMove env s l t) : t = { s with pool := t.pool, log := t.log } := by
  cases h <;> rfl

theorem sameTable (h : WorkerMove env s l t) : SameTable s t := by
  rw [h.frame]
  exact SameTable.of_eq rfl rfl rfl rfl

theorem loop (h : WorkerMove env s l t) : t.loop = s.loop := by
  rw [h.frame]

theorem managers (h : WorkerMove env s l t) : t.managers = s.managers := by
  rw [h.frame]

end WorkerMove

/-! ## The loop thread -/

/-- The moves of the loop thread. -/
inductive LoopMove (env : Env) (s : State) : LoopLabel → State → Prop where
  /-- a websocket opens -/
  | opened : s.loop = .idle → LoopMove env s .opened (s.construct env)
  /-- INFO is ignored -/
  | info {m : Nat} {view : Bytes} {packet : WispPacket} : s.loop = .idle → m ∈ s.managers →
      WispPacket.parse view (UInt64.ofNat view.length) = .ok packet →
      packet.packetType = packetInfo → LoopMove env s (.message m view) s
  /-- CLOSE and unknown types do nothing -/
  | other {m : Nat} {view : Bytes} {packet : WispPacket} : s.loop = .idle → m ∈ s.managers →
      WispPacket.parse view (UInt64.ofNat view.length) = .ok packet →
      packet.packetType ≠ packetConnect → packet.packetType ≠ packetData →
      LoopMove env s (.message m view) (s.endHandshake m)
  /-- a CONNECT passes the filter -/
  | connect {m : Nat} {view : Bytes} {packet : WispPacket} {c : ConnectCall} :
      s.loop = .idle → m ∈ s.managers →
      WispPacket.parse view (UInt64.ofNat view.length) = .ok packet →
      packet.packetType = packetConnect → c.manager = m → c.streamId = packet.streamId →
      packet.data[0]? = some c.streamType → SystemInterface.sockType c.streamType ≠ none →
      LoopMove env s (.message m view) { s.endHandshake m with loop := .socket c }
  /-- a CONNECT does not -/
  | refuse {m : Nat} {view : Bytes} {packet : WispPacket} {c : ConnectCall} :
      s.loop = .idle → m ∈ s.managers →
      WispPacket.parse view (UInt64.ofNat view.length) = .ok packet →
      packet.packetType = packetConnect → c.manager = m → c.streamId = packet.streamId →
      LoopMove env s (.message m view) ((s.endHandshake m).refuse env c)
  /-- DATA -/
  | data {m : Nat} {view : Bytes} {packet : WispPacket} : s.loop = .idle → m ∈ s.managers →
      WispPacket.parse view (UInt64.ofNat view.length) = .ok packet →
      packet.packetType = packetData →
      LoopMove env s (.message m view) ((s.endHandshake m).handleData env m packet).2
  /-- a websocket has drained -/
  | drain {m : Nat} : s.loop = .idle → m ∈ s.managers → LoopMove env s (.drain m) (s.drain env m)
  /-- a websocket closes -/
  | close {m : Nat} : s.loop = .idle → m ∈ s.managers → LoopMove env s (.close m) (s.forceClose m)
  /-- the oldest closure runs -/
  | deferred {p : Pass} {rest : List Pass} : s.loop = .idle → s.deferred = p :: rest →
      LoopMove env s .deferred
        { (s.holders p.fd).foldl (fun s h => s.deliver env p h) { s with deferred := rest } with
          loop := State.afterDeliver p (s.holders p.fd) }
  /-- no socket could be made -/
  | socketFail {c : ConnectCall} : s.loop = .socket c →
      LoopMove env s (.socket none) (s.refuse env c)
  /-- a socket was made -/
  | socket {c : ConnectCall} {fd : Fd} (hfd : s.kernel.files fd = none) : s.loop = .socket c →
      LoopMove env s (.socket (some fd)) { s with
        kernel := s.kernel.socket fd hfd (c.manager, c.streamId)
        loop := .connect c fd }
  /-- `connect` succeeded -/
  | connected {c : ConnectCall} {fd : Fd} : s.loop = .connect c fd →
      LoopMove env s (.connect true) { s with loop := .pushFd c fd }
  /-- `connect` failed -/
  | connectFail {c : ConnectCall} {fd : Fd} : s.loop = .connect c fd →
      LoopMove env s (.connect false) ((s.closeFd fd).refuse env c)
  /-- the descriptor is registered -/
  | pushFd {c : ConnectCall} {fd : Fd} {ok : Bool} : s.loop = .pushFd c fd →
      LoopMove env s (.pushFd ok) (s.pushFd c fd ok)
  /-- the stream is stored -/
  | insert {c : ConnectCall} {fd : Fd} : s.loop = .insert c fd → s.lockFree c.manager = true →
      LoopMove env s .resume (s.insertStream c fd)
  /-- `force_close` lists the ids -/
  | listIds {m : Nat} : s.loop = .forceClose m → s.lockFree m = true →
      LoopMove env s .resume (s.listIds m)
  /-- `force_close` closes a stream -/
  | closeNext {m : Nat} {streamId : UInt32} {ids : List UInt32} :
      s.loop = .closing m (streamId :: ids) → s.lockFree m = true →
      LoopMove env s .resume (s.closeNext env m streamId ids)
  /-- the manager is destroyed -/
  | destruct {m : Nat} : s.loop = .closing m [] → LoopMove env s .resume (s.destruct m)
  /-- the closure closes the stream it found -/
  | closeFound {p : Pass} {m : Nat} {streamId : UInt32} : s.loop = .closeFound p m streamId →
      s.lockFree m = true → LoopMove env s .resume (s.closeFound env p m streamId)
  /-- the closure decrements `send_queue_len` -/
  | decrement : s.loop = .decrement → LoopMove env s .resume s.decrementQueue
  /-- the closure reads `send_queue_len` -/
  | check : s.loop = .check → LoopMove env s .resume s.checkQueue
  /-- the closure ends -/
  | sweepDone : s.loop = .sweep [] → LoopMove env s .resume { s with loop := .idle }
  /-- the closure renews the credit of a manager's streams -/
  | sweep {m : Nat} {ms : List Nat} : s.loop = .sweep (m :: ms) →
      LoopMove env s .resume { s.updateStreams env m with loop := .sweep ms }

/-- What `receive` can do with a message. -/
theorem receive_cases {env : Env} {s t : State} {m : Nat} {view : Bytes} (hi : s.loop = .idle)
    (hm : m ∈ s.managers) (h : s.receive env m view = .ok t) :
    LoopMove env s (.message m view) t := by
  rw [State.receive, andThen_eq_ok] at h
  obtain ⟨packet, hp, h⟩ := h
  split at h
  · rename_i hinfo
    cases h
    exact .info hi hm hp hinfo
  · dsimp only at h
    split at h
    · rename_i hc
      rw [State.handleConnect, andThen_eq_ok] at h
      obtain ⟨cp, hcp, h⟩ := h
      dsimp only at h
      split at h
      · cases h
        exact .refuse hi hm hp hc rfl rfl
      · rw [andThen_eq_ok] at h
        obtain ⟨hostname, -, h⟩ := h
        split at h
        · rename_i hpass
          cases h
          refine .connect hi hm hp hc rfl rfl (ConnectPacket.streamType_of_parse hcp) ?_
          intro hnone
          rw [SystemInterface.passesFilter, hnone] at hpass
          cases hpass
        · cases h
          exact .refuse hi hm hp hc rfl rfl
    · rename_i hc
      split at h
      · rename_i hd
        cases h
        exact .data hi hm hp hd
      · rename_i hd
        cases h
        exact .other hi hm hp hc hd

/-- Taking the lock. -/
theorem locked_eq_some {s t u : State} {m : Nat} :
    s.locked m t = some u ↔ s.lockFree m = true ∧ t = u := by
  rw [State.locked]
  by_cases h : s.lockFree m = true
  · simp [h]
  · simp [h]

/-- Going on from a program point inside a handler or closure. -/
theorem resume_cases {env : Env} {s t : State} (h : s.resume env = some t) :
    LoopMove env s .resume t := by
  rw [State.resume] at h
  split at h
  · rename_i c fd hl
    obtain ⟨hfree, rfl⟩ := locked_eq_some.mp h
    exact .insert hl hfree
  · rename_i m hl
    obtain ⟨hfree, rfl⟩ := locked_eq_some.mp h
    exact .listIds hl hfree
  · rename_i m streamId ids hl
    obtain ⟨hfree, rfl⟩ := locked_eq_some.mp h
    exact .closeNext hl hfree
  · rename_i m hl
    obtain rfl := Option.some.inj h
    exact .destruct hl
  · rename_i p m streamId hl
    obtain ⟨hfree, rfl⟩ := locked_eq_some.mp h
    exact .closeFound hl hfree
  · rename_i hl
    obtain rfl := Option.some.inj h
    exact .decrement hl
  · rename_i hl
    obtain rfl := Option.some.inj h
    exact .check hl
  · rename_i ms hl
    obtain rfl := Option.some.inj h
    cases ms with
    | nil => exact .sweepDone hl
    | cons m ms => exact .sweep hl
  · cases h

theorem loopStep_cases {env : Env} {s t : State} {l : LoopLabel}
    (h : s.loopStep env l = some t) : LoopMove env s l t := by
  cases l with
  | opened =>
    rw [State.loopStep, Option.ite_none_right_eq_some] at h
    obtain ⟨hi, h⟩ := h
    obtain rfl := Option.some.inj h
    exact .opened hi
  | message m view =>
    rw [State.loopStep, Option.ite_none_right_eq_some] at h
    obtain ⟨⟨hi, hm⟩, h⟩ := h
    cases hr : s.receive env m view with
    | error e =>
      rw [hr] at h
      cases h
    | ok u =>
      rw [hr] at h
      obtain rfl := Option.some.inj h
      exact receive_cases hi hm hr
  | drain m =>
    rw [State.loopStep, Option.ite_none_right_eq_some] at h
    obtain ⟨⟨hi, hm⟩, h⟩ := h
    obtain rfl := Option.some.inj h
    exact .drain hi hm
  | close m =>
    rw [State.loopStep, Option.ite_none_right_eq_some] at h
    obtain ⟨⟨hi, hm⟩, h⟩ := h
    obtain rfl := Option.some.inj h
    exact .close hi hm
  | deferred =>
    rw [State.loopStep, Option.ite_none_right_eq_some, State.runDeferred] at h
    obtain ⟨hi, h⟩ := h
    split at h
    · cases h
    · rename_i p rest hd
      obtain rfl := Option.some.inj h
      exact .deferred hi hd
  | socket fd =>
    rw [State.loopStep] at h
    split at h
    · rename_i c hl
      cases fd with
      | none =>
        obtain rfl := Option.some.inj h
        exact .socketFail hl
      | some fd =>
        rw [State.openSocket] at h
        split at h
        · rename_i hfd
          obtain rfl := Option.some.inj h
          exact .socket hfd hl
        · cases h
    · cases h
  | connect ok =>
    rw [State.loopStep] at h
    split at h
    · rename_i c fd hl
      obtain rfl := Option.some.inj h
      cases ok with
      | true => exact .connected hl
      | false => exact .connectFail hl
    · cases h
  | pushFd ok =>
    rw [State.loopStep] at h
    split at h
    · rename_i c fd hl
      obtain rfl := Option.some.inj h
      exact .pushFd hl
    · cases h
  | resume => exact resume_cases h

end Woeful
