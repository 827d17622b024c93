import Woeful.Finality

/-!
# The CLOSE of a client

`receive` does nothing with a CLOSE: a client is expected to close its websocket, and the
close handler then closes the streams. All that a CLOSE leaves behind is `info_valid`,
like every packet but INFO, and nothing reads that for more than clearing it.

`Alike` relates states that differ in `info_valid` at most. It is a bisimulation
(`Alike.step`), so a run after a CLOSE is a run without it (`close_ignored`).
-/

namespace Woeful

open Memory Transition Log

variable {env : Env} {s s' t : State} {m : Nat}

/-! ## States that differ in `info_valid` -/

/-- A manager with its `info_valid` set. -/
def WebSocketManager.forgetInfo (manager : WebSocketManager) : WebSocketManager :=
  { manager with infoValid := true }

/-- The states differ in `info_valid` at most. -/
structure Alike (s s' : State) : Prop where
  /-- the same managers exist, and are the same otherwise -/
  managers : ∀ m, (s'.managers.lookup m).map WebSocketManager.forgetInfo =
    (s.managers.lookup m).map WebSocketManager.forgetInfo
  /-- and so is everything else -/
  rest : s' = { s with managers := s'.managers }

namespace Alike

theorem refl (s : State) : Alike s s := ⟨fun _ => rfl, rfl⟩

theorem symm (h : Alike s s') : Alike s' s := by
  obtain ⟨hm, hrest⟩ := h
  generalize s'.managers = ms at hm hrest
  subst hrest
  exact ⟨fun m => (hm m).symm, rfl⟩

/-- A manager, in both states. -/
theorem lookup_cases (h : Alike s s') (m : Nat) :
    (s.managers.lookup m = none ∧ s'.managers.lookup m = none) ∨
      ∃ a a', s.managers.lookup m = some a ∧ s'.managers.lookup m = some a' ∧
        a'.streams = a.streams ∧ a'.hasBackpressure = a.hasBackpressure := by
  have hm := h.managers m
  cases ha : s.managers.lookup m with
  | none =>
    rw [ha] at hm
    exact Or.inl ⟨rfl, Option.map_eq_none_iff.mp hm⟩
  | some a =>
    rw [ha] at hm
    obtain ⟨a', ha', hforget⟩ := Option.map_eq_some_iff.mp hm
    have hstreams := congrArg WebSocketManager.streams hforget
    have hback := congrArg WebSocketManager.hasBackpressure hforget
    exact Or.inr ⟨a, a', rfl, ha', hstreams, hback⟩

theorem mem (h : Alike s s') : m ∈ s'.managers ↔ m ∈ s.managers := by
  rw [AList.mem_iff_lookup, AList.mem_iff_lookup]
  rcases h.lookup_cases m with ⟨ha, ha'⟩ | ⟨a, a', ha, ha', -⟩
  · simp [ha, ha']
  · simp [ha, ha']

theorem kernel (h : Alike s s') : s'.kernel = s.kernel := by rw [h.rest]

theorem loop (h : Alike s s') : s'.loop = s.loop := by rw [h.rest]

theorem watcher (h : Alike s s') : s'.watcher = s.watcher := by rw [h.rest]

theorem log (h : Alike s s') : s'.log = s.log := by rw [h.rest]

theorem id (h : Alike s s') : s'.id = s.id := by rw [h.rest]

theorem stream (h : Alike s s') : s'.stream = s.stream := by
  funext m id
  rw [State.stream, State.stream]
  rcases h.lookup_cases m with ⟨ha, ha'⟩ | ⟨a, a', ha, ha', hstreams, -⟩
  · rw [ha, ha']
  · rw [ha, ha', Option.bind_some, Option.bind_some, hstreams]

theorem hasBackpressure (h : Alike s s') : s'.hasBackpressure = s.hasBackpressure := by
  funext m
  rw [State.hasBackpressure, State.hasBackpressure]
  rcases h.lookup_cases m with ⟨ha, ha'⟩ | ⟨a, a', ha, ha', -, hback⟩
  · rw [ha, ha']
  · rw [ha, ha']
    exact hback

theorem keys (h : Alike s s') (m : Nat) :
    (s'.managers.lookup m).elim [] (·.streams.keys) =
      (s.managers.lookup m).elim [] (·.streams.keys) := by
  rcases h.lookup_cases m with ⟨ha, ha'⟩ | ⟨a, a', ha, ha', hstreams, -⟩
  · rw [ha, ha']
  · rw [ha, ha', Option.elim_some, Option.elim_some, hstreams]

theorem boundSock (h : Alike s s') : s'.boundSock = s.boundSock := by
  funext m id
  rw [State.boundSock, State.boundSock, State.binding, State.binding, h.stream, h.rest]

theorem holders (h : Alike s s') (fd : Fd) : s'.holders fd = s.holders fd := by
  have hof : s'.holdersOf fd = s.holdersOf fd := by
    funext m
    rw [State.holdersOf, State.holdersOf]
    rcases h.lookup_cases m with ⟨ha, ha'⟩ | ⟨a, a', ha, ha', hstreams, -⟩
    · rw [ha, ha']
    · rw [ha, ha']
      simp only [hstreams]
  rw [State.holders, State.holders, hof, h.rest]

/-! ## Updates that keep them alike -/

/-- The rest of the state changes in the same way. -/
theorem of_managers {f : State → State} (h : Alike s s')
    (hf : ∀ s ms, f { s with managers := ms } = { f s with managers := ms })
    (hm : ∀ s, (f s).managers = s.managers) : Alike (f s) (f s') := by
  obtain ⟨hms, hrest⟩ := h
  generalize s'.managers = ms at hms hrest
  subst hrest
  rw [hf s ms]
  exact ⟨fun m => by rw [hm]; exact hms m, rfl⟩

theorem record (h : Alike s s') (e : Event) : Alike (s.record e) (s'.record e) :=
  h.of_managers (f := (State.record · e)) (fun _ _ => rfl) fun _ => rfl

theorem setLoop (h : Alike s s') (l : LoopState) :
    Alike { s with loop := l } { s' with loop := l } :=
  h.of_managers (f := fun s => { s with loop := l }) (fun _ _ => rfl) fun _ => rfl

theorem send (h : Alike s s') (m : Nat) (packet : WispPacket) (origin : Origin) :
    Alike (s.send env m packet origin) (s'.send env m packet origin) :=
  h.of_managers (f := (State.send env · m packet origin)) (fun _ _ => rfl) fun _ => rfl

theorem closeFd (h : Alike s s') (fd : Fd) : Alike (s.closeFd fd) (s'.closeFd fd) :=
  h.of_managers (f := (State.closeFd · fd)) (fun _ _ => rfl) fun _ => rfl

theorem refuse (h : Alike s s') (c : ConnectCall) : Alike (s.refuse env c) (s'.refuse env c) :=
  h.of_managers (f := (State.refuse env · c)) (fun _ _ => rfl) fun _ => rfl

theorem submitTask (h : Alike s s') (task : WriteTask) :
    Alike (s.submitTask task) (s'.submitTask task) :=
  h.of_managers (f := (State.submitTask · task)) (fun _ _ => rfl) fun _ => rfl

/-- A manager is updated by what does not look at `info_valid`. -/
theorem modifyManager (h : Alike s s') {f f' : WebSocketManager → WebSocketManager}
    (hf : ∀ a a', a'.forgetInfo = a.forgetInfo → (f' a').forgetInfo = (f a).forgetInfo) :
    Alike (s.modifyManager m f) (s'.modifyManager m f') := by
  refine ⟨fun m' => ?_, ?_⟩
  · by_cases hne : m' = m
    · subst hne
      rw [State.lookup_modifyManager_self, State.lookup_modifyManager_self]
      have hm := h.managers m'
      cases ha : s.managers.lookup m' with
      | none =>
        rw [ha] at hm
        rw [Option.map_eq_none_iff.mp hm]
        rfl
      | some a =>
        rw [ha] at hm
        obtain ⟨a', ha', hforget⟩ := Option.map_eq_some_iff.mp hm
        rw [ha']
        exact congrArg some (hf a a' hforget)
    · rw [State.lookup_modifyManager_ne hne, State.lookup_modifyManager_ne hne]
      exact h.managers m'
  · rw [State.modifyManager, State.modifyManager, h.rest]

theorem setBackpressure (h : Alike s s') (m : Nat) (b : Bool) :
    Alike (s.setBackpressure m b) (s'.setBackpressure m b) := by
  apply h.modifyManager
  intro a a' ha
  exact congrArg (fun a : WebSocketManager => { a with hasBackpressure := b }) ha

/-- The streams of a manager are updated. -/
theorem modifyStreams (h : Alike s s')
    (f : (AList fun _ : UInt32 => SocketStreamData) → AList fun _ : UInt32 => SocketStreamData) :
    Alike (s.modifyManager m fun a => { a with streams := f a.streams })
      (s'.modifyManager m fun a => { a with streams := f a.streams }) := by
  apply h.modifyManager
  intro a a' ha
  exact congrArg (fun a : WebSocketManager => { a with streams := f a.streams }) ha

theorem setBuffer (h : Alike s s') (m : Nat) (streamId buffer : UInt32) :
    Alike (s.setBuffer m streamId buffer) (s'.setBuffer m streamId buffer) :=
  h.modifyStreams _

/-- What `receive` does to `info_valid` is forgotten. -/
theorem endHandshake_self (s : State) (m : Nat) : Alike s (s.endHandshake m) := by
  refine ⟨fun m' => ?_, rfl⟩
  by_cases hne : m' = m
  · subst hne
    rw [State.endHandshake, State.lookup_modifyManager_self]
    cases s.managers.lookup m' with
    | none => rfl
    | some a =>
      rw [Option.map_some, Option.map_some, Option.map_some]
      congr 1
      split <;> rfl
  · rw [State.endHandshake, State.lookup_modifyManager_ne hne]

theorem trans {s'' : State} (h : Alike s s') (h' : Alike s' s'') : Alike s s'' where
  managers m := (h'.managers m).trans (h.managers m)
  rest := by rw [h'.rest, h.rest]

theorem endHandshake (h : Alike s s') (m : Nat) : Alike (s.endHandshake m) (s'.endHandshake m) :=
  ((endHandshake_self s m).symm.trans h).trans (endHandshake_self s' m)

/-- A loop whose body keeps them alike does. -/
theorem foldl {A : Type} {f : State → A → State}
    (hf : ∀ s s' a, Alike s s' → Alike (f s a) (f s' a)) (l : List A) :
    ∀ {s s' : State}, Alike s s' → Alike (l.foldl f s) (l.foldl f s') := by
  induction l with
  | nil => exact fun h => h
  | cons a l ih => exact fun h => ih (hf _ _ a h)

/-! ### The loop thread -/

theorem updateStreams (h : Alike s s') (m : Nat) :
    Alike (s.updateStreams env m) (s'.updateStreams env m) := by
  rw [State.updateStreams, State.updateStreams, h.hasBackpressure, h.watcher]
  split
  · exact h
  · rcases h.lookup_cases m with ⟨ha, ha'⟩ | ⟨a, a', ha, ha', hstreams, -⟩
    · rw [ha, ha']
      exact h
    · rw [ha, ha']
      simp only [hstreams]
      apply modifyStreams
      exact foldl (fun _ _ e h => h.send m
        ⟨packetContinue, e.1, ContinuePacket.serialize bufferCount⟩ .server) _ h

theorem handleData (h : Alike s s') (m : Nat) (packet : WispPacket) :
    Alike (s.handleData env m packet).2 (s'.handleData env m packet).2 := by
  rw [State.handleData, State.handleData, h.stream, h.boundSock]
  cases s.stream m packet.streamId with
  | none => exact h
  | some d =>
    have hsubmit := h.submitTask ⟨m, packet, s.boundSock m packet.streamId⟩
    dsimp only
    rw [hsubmit.hasBackpressure, hsubmit.watcher]
    split
    · split
      · exact (hsubmit.setBuffer m _ _).send m _ _
      · exact hsubmit.setBuffer m _ _
    · exact hsubmit

theorem closeStream (h : Alike s s') (m : Nat) (streamId : UInt32) (removePoll : Bool)
    (origin : Origin) :
    Alike (s.closeStream env m streamId removePoll origin)
      (s'.closeStream env m streamId removePoll origin) := by
  rw [State.closeStream, State.closeStream, h.stream]
  let packet : WispPacket := ⟨packetClose, streamId, ClosePacket.serialize 0x02⟩
  have hsent : Alike (s.send env m packet origin) (s'.send env m packet origin) :=
    h.send m packet origin
  cases removePoll with
  | false => exact (hsent.closeFd _).modifyStreams (AList.erase streamId)
  | true =>
    let fd := ((s.stream m streamId).getD {}).fd
    have herase := hsent.of_managers (f := fun s => { s with kernel := s.kernel.eraseFd fd })
      (fun _ _ => rfl) fun _ => rfl
    exact (herase.closeFd _).modifyStreams (AList.erase streamId)

theorem deliver (h : Alike s s') (p : Pass) (found : Nat × UInt32) :
    Alike (s.deliver env p found) (s'.deliver env p found) := by
  have hstatus : s'.sendStatus env = s.sendStatus env := by
    rw [State.sendStatus, State.sendStatus, h.log]
  let packet : WispPacket := ⟨packetData, found.2, p.combinedBuffer⟩
  let origin : Origin := .closure p (s.boundSock found.1 found.2)
  have hsent : Alike (s.send env found.1 packet origin) (s'.send env found.1 packet origin) :=
    h.send found.1 packet origin
  rw [State.deliver, State.deliver, h.boundSock]
  split
  · split
    · exact hsent.setBackpressure _ _
    · rename_i hb hnot
      exact absurd (hstatus.trans hb) hnot
  · split
    · rename_i hnot hb
      exact absurd (hstatus.symm.trans hb) hnot
    · exact hsent

theorem construct (h : Alike s s') : Alike (s.construct env) (s'.construct env) := by
  have hnew : Alike { s with id := s.id + 1, managers := s.managers.insert s.id {} }
      { s' with id := s'.id + 1, managers := s'.managers.insert s'.id {} } := by
    refine ⟨fun m => ?_, by rw [h.rest]⟩
    rw [h.id]
    by_cases hm : m = s.id
    · subst hm
      rw [AList.lookup_insert, AList.lookup_insert]
    · rw [AList.lookup_insert_ne hm, AList.lookup_insert_ne hm]
      exact h.managers m
  have hsent := @send env _ _ hnew s.id
    ⟨packetContinue, 0, ContinuePacket.serialize bufferCount⟩ .server
  have hwatched := hsent.of_managers (f := fun u => { u with watcher := { u.watcher with
    watchedSockets := s.id :: u.watcher.watchedSockets.filter (· ≠ s.id) } })
    (fun _ _ => rfl) fun _ => rfl
  rw [State.construct, State.construct, h.id]
  rw [h.id] at hwatched
  exact hwatched

theorem destruct (h : Alike s s') (m : Nat) : Alike (s.destruct m) (s'.destruct m) := by
  refine ⟨fun m' => ?_, by rw [h.rest]; rfl⟩
  change ((s'.managers.erase m).lookup m').map _ = ((s.managers.erase m).lookup m').map _
  by_cases hm : m' = m
  · subst hm
    rw [AList.lookup_erase, AList.lookup_erase]
  · rw [AList.lookup_erase_ne hm, AList.lookup_erase_ne hm]
    exact h.managers m'

theorem insertStream (h : Alike s s') (c : ConnectCall) (fd : Fd) :
    Alike (s.insertStream c fd) (s'.insertStream c fd) := by
  have hstored := h.modifyStreams (m := c.manager)
    (AList.insert c.streamId ⟨c.streamType, c.streamId, fd, bufferCount⟩)
  have hlogged := hstored.record (.connected c.manager c.streamId (s.kernel.sockAt fd))
  change Alike _ { (s'.modifyManager c.manager _).record
    (.connected c.manager c.streamId (s'.kernel.sockAt fd)) with loop := .idle }
  rw [h.kernel]
  exact hlogged.setLoop .idle

theorem receive (h : Alike s s') (m : Nat) (view : Bytes) :
    Option.Rel Alike (s.receive env m view).toOption (s'.receive env m view).toOption := by
  rw [State.receive, State.receive]
  cases WispPacket.parse view (UInt64.ofNat view.length) with
  | error e => exact .none
  | ok packet =>
    have hhand := h.endHandshake m
    change Option.Rel Alike (Except.toOption (if _ then _ else _))
      (Except.toOption (if _ then _ else _))
    split
    · exact .some h
    · split
      · -- CONNECT: its packet decides, in both states
        rw [State.handleConnect, State.handleConnect]
        cases ConnectPacket.parse packet.data (UInt64.ofNat packet.data.length) with
        | error e => exact .none
        | ok connectPacket =>
          dsimp only [bind, Except.bind]
          split
          · exact .some (hhand.refuse _)
          · cases cString connectPacket.destinationHostname with
            | error e => exact .none
            | ok hostname =>
              dsimp only
              split
              · exact .some (hhand.setLoop _)
              · exact .some (hhand.refuse _)
      · split
        · exact .some (hhand.handleData m packet)
        · exact .some hhand

/-- The lock is free in both states, or in neither. -/
theorem locked {t t' : State} (h : Alike s s') (ht : Alike t t') (m : Nat) :
    Option.Rel Alike (s.locked m t) (s'.locked m t') := by
  rw [State.locked, State.locked, show s'.lockFree m = s.lockFree m by rw [h.rest]; rfl]
  split
  · exact .some ht
  · exact .none

theorem closeNext (h : Alike s s') (m : Nat) (streamId : UInt32) (ids : List UInt32) :
    Alike (s.closeNext env m streamId ids) (s'.closeNext env m streamId ids) :=
  (h.closeStream m streamId true .server).setLoop (.closing m ids)

theorem closeFound (h : Alike s s') (p : Pass) (m : Nat) (streamId : UInt32) :
    Alike (s.closeFound env p m streamId) (s'.closeFound env p m streamId) := by
  rw [State.closeFound, State.closeFound, h.boundSock]
  exact (h.closeStream m streamId false _).setLoop .decrement

theorem resume (h : Alike s s') : Option.Rel Alike (s.resume env) (s'.resume env) := by
  rw [State.resume, State.resume, h.loop]
  split
  · exact h.locked (h.insertStream _ _) _
  · rename_i m hl
    apply h.locked
    rw [State.listIds, State.listIds, h.keys]
    exact h.setLoop _
  · exact h.locked (h.closeNext _ _ _) _
  · exact .some (h.destruct _)
  · exact h.locked (h.closeFound _ _ _) _
  · exact .some (h.of_managers (f := State.decrementQueue) (fun _ _ => rfl) fun _ => rfl)
  · exact .some (h.of_managers (f := State.checkQueue) (fun _ _ => rfl) fun _ => rfl)
  · rename_i ms hl
    cases ms with
    | nil => exact .some (h.setLoop _)
    | cons m ms => exact .some ((h.updateStreams m).setLoop _)
  · exact .none

theorem runDeferred (h : Alike s s') :
    Option.Rel Alike (s.runDeferred env) (s'.runDeferred env) := by
  rw [State.runDeferred, State.runDeferred, show s'.deferred = s.deferred by rw [h.rest]]
  cases s.deferred with
  | nil => exact .none
  | cons p rest =>
    dsimp only
    rw [h.holders]
    have hpop := h.of_managers (f := fun s => { s with deferred := rest }) (fun _ _ => rfl)
      fun _ => rfl
    exact .some ((foldl (fun _ _ found h => h.deliver p found) _ hpop).setLoop _)

theorem loopStep (h : Alike s s') (l : LoopLabel) :
    Option.Rel Alike (s.loopStep env l) (s'.loopStep env l) := by
  have hwhen : ∀ {c c' : Prop} [Decidable c] [Decidable c'] {o o' : Option State},
      (c' ↔ c) → Option.Rel Alike o o' →
        Option.Rel Alike (if c then o else none) (if c' then o' else none) := by
    intro c c' _ _ o o' hc ho
    by_cases hyes : c
    · rw [if_pos hyes, if_pos (hc.mpr hyes)]
      exact ho
    · rw [if_neg hyes, if_neg (fun h => hyes (hc.mp h))]
      exact .none
  have hidle : s'.loop = .idle ↔ s.loop = .idle := by rw [h.loop]
  have hopen : ∀ m, (s'.loop = .idle ∧ m ∈ s'.managers) ↔ s.loop = .idle ∧ m ∈ s.managers :=
    fun _ => and_congr hidle h.mem
  cases l with
  | opened => exact hwhen hidle (.some h.construct)
  | message m view => exact hwhen (hopen m) (h.receive m view)
  | drain m =>
    exact hwhen (hopen m) (.some ((h.setBackpressure m false).updateStreams m))
  | close m =>
    exact hwhen (hopen m) (.some ((h.setBackpressure m false).setLoop (.forceClose m)))
  | deferred => exact hwhen hidle h.runDeferred
  | socket fd =>
    rw [State.loopStep, State.loopStep, h.loop]
    split
    · rename_i c hl
      cases fd with
      | none => exact .some (h.refuse c)
      | some fd =>
        rw [State.openSocket, State.openSocket]
        by_cases hfd : s.kernel.files fd = none
        · have hfd' : s'.kernel.files fd = none := by rw [h.kernel]; exact hfd
          rw [dif_pos hfd, dif_pos hfd']
          refine .some ⟨h.managers, ?_⟩
          obtain ⟨-, hrest⟩ := h
          generalize s'.managers = ms at hrest ⊢
          subst hrest
          rfl
        · rw [dif_neg hfd, dif_neg (by rw [h.kernel]; exact hfd)]
          exact .none
    · exact .none
  | connect ok =>
    rw [State.loopStep, State.loopStep, h.loop]
    split
    · cases ok with
      | true => exact .some (h.setLoop _)
      | false => exact .some ((h.closeFd _).refuse _)
    · exact .none
  | pushFd ok =>
    rw [State.loopStep, State.loopStep, h.loop]
    split
    · rename_i c fd hl
      exact .some (h.of_managers (f := fun s => s.pushFd c fd ok) (fun _ _ => rfl) fun _ => rfl)
    · exact .none
  | resume => exact h.resume

/-! ### The other threads -/

theorem watchStep (h : Alike s s') (l : WatchLabel) :
    Option.Rel Alike (s.watchStep env l) (s'.watchStep env l) := by
  have hphase : s'.watcher.phase = s.watcher.phase := by rw [h.watcher]
  have hevents : s'.watcher.events = s.watcher.events := by rw [h.watcher]
  obtain ⟨hms, hrest⟩ := h
  generalize s'.managers = ms at hms hrest
  subst hrest
  cases l with
  | wait events =>
    rw [State.watchStep, State.watchStep, State.watchWait, State.watchWait]
    split
    · exact .some ⟨hms, rfl⟩
    · exact .none
  | next =>
    rw [State.watchStep, State.watchStep, State.watchNext, State.watchNext, hphase, hevents]
    split
    · exact .some ⟨hms, rfl⟩
    · split
      · exact .some ⟨hms, rfl⟩
      · exact .some ⟨hms, rfl⟩
    · exact .none
  | read result =>
    rw [State.watchStep, State.watchStep, State.watchRead, State.watchRead, hphase]
    split
    · split
      · exact .some ⟨hms, rfl⟩
      · exact .none
    · exact .none
  | erase =>
    rw [State.watchStep, State.watchStep, State.watchErase, State.watchErase, hphase]
    split
    · exact .some ⟨hms, rfl⟩
    · exact .none
  | count =>
    rw [State.watchStep, State.watchStep, State.watchCount, State.watchCount, hphase]
    split
    · exact .some ⟨hms, rfl⟩
    · exact .none
  | defer =>
    rw [State.watchStep, State.watchStep, State.watchDefer, State.watchDefer, hphase]
    split
    · exact .some ⟨hms, rfl⟩
    · exact .none

theorem setPool (h : Alike s s') (pool : ThreadPool) :
    Alike { s with pool := pool } { s' with pool := pool } :=
  h.of_managers (f := fun s => { s with pool := pool }) (fun _ _ => rfl) fun _ => rfl

theorem workerStep (h : Alike s s') (l : WorkerLabel) :
    Option.Rel Alike (s.workerStep env l) (s'.workerStep env l) := by
  have hpool : s'.pool = s.pool := by rw [h.rest]
  cases l with
  | dequeue =>
    rw [State.workerStep, State.workerStep, State.dequeue, State.dequeue, hpool]
    split
    · exact .none
    · split
      · exact .some (h.setPool _)
      · exact .none
  | begin i =>
    rw [State.workerStep, State.workerStep, State.beginTask, State.beginTask, hpool, h.stream]
    split
    · split
      · rw [State.setRunning, State.setRunning, hpool]
        exact .some ((h.setPool _).record _)
      · exact .some ((h.setPool _).record _)
    · exact .none
  | poll i ok =>
    rw [State.workerStep, State.workerStep, State.pollTask, State.pollTask, hpool]
    simp only [State.setRunning, hpool]
    split
    · split
      · exact .some (h.setPool _)
      · exact .some (h.setPool _)
    · exact .none
  | write i res =>
    rw [State.workerStep, State.workerStep, State.writeTask, State.writeTask, hpool, h.boundSock]
    simp only [State.setRunning, hpool]
    split
    · cases res with
      | accepted n =>
        dsimp only
        split
        · exact .some ((h.setPool _).record _)
        · exact .none
      | again => exact .some (h.setPool _)
      | error => exact .some (h.setPool _)
    · exact .none

theorem rehash (h : Alike s s') (m : Nat) (streams : AList fun _ : UInt32 => SocketStreamData) :
    Option.Rel Alike (s.rehash m streams) (s'.rehash m streams) := by
  rw [State.rehash, State.rehash, h.loop]
  rcases h.lookup_cases m with ⟨ha, ha'⟩ | ⟨a, a', ha, ha', hstreams, -⟩
  · rw [ha, ha']
    exact .none
  · rw [ha, ha']
    dsimp only
    rw [hstreams]
    split
    · exact .some (h.modifyStreams fun _ => streams)
    · exact .none

/-- **A step does the same in both states.** -/
theorem step (h : Alike s s') (l : Label) : Option.Rel Alike (s.step env l) (s'.step env l) := by
  cases l with
  | loop l => exact h.loopStep l
  | watch l => exact h.watchStep l
  | worker l => exact h.workerStep l
  | rehash m streams => exact h.rehash m streams
  | rehashSockets ms =>
    obtain ⟨hms, hrest⟩ := h
    generalize s'.managers = managers at hms hrest
    subst hrest
    rw [State.step, State.step, State.rehashSockets, State.rehashSockets]
    split
    · exact .some ⟨hms, rfl⟩
    · exact .none

/-- **So a run does.** -/
theorem run {as : List Label} (h : Alike s s')
    (hrun : (server env).Run (fun _ _ => True) s as t) :
    ∃ t', (server env).Run (fun _ _ => True) s' as t' ∧ Alike t t' := by
  refine System.Run.simulate (fun s a t s' _ hst hR => ⟨trivial, ?_⟩) hrun h
  have hrel : Option.Rel Alike (s.step env a) (s'.step env a) := hR.step a
  rw [show s.step env a = some t from hst] at hrel
  generalize hs' : s'.step env a = o at hrel
  cases hrel with
  | some ht => exact ⟨_, hs', ht⟩

end Alike

/-! ## A CLOSE ends nothing -/

/-- What it would mean that a CLOSE ends stream `id` of manager `m`, from `s` to `t`. -/
structure StreamEnded (env : Env) (m : Nat) (id : UInt32) (s t : State) : Prop where
  /-- the stream is erased -/
  absent : t.stream m id = none
  /-- its descriptor is closed, and out of the epoll set -/
  closed : ∀ fd, s.binding m id = some fd → t.kernel.files fd = none ∧ fd ∉ t.kernel.epoll
  /-- every other stream is as it was -/
  others : ∀ m' id', ¬ (m' = m ∧ id' = id) → t.stream m' id' = s.stream m' id'
  /-- it is not served until a CONNECT for it succeeds -/
  silent : ∀ as u, (server env).Run (fun _ _ => True) t as u → ∀ pre packet status origin post,
    u.log = t.log ++ pre ++ .sent m packet status origin :: post → packet.Serves →
    packet.streamId = id → ∃ sock, .connected m id sock ∈ pre

/-- What a CLOSE does: `t`, after it, is `s` up to `info_valid`, and so are their runs. -/
structure Ignored (env : Env) (s t : State) : Prop where
  /-- every stream of every manager is as it was -/
  stream : t.stream = s.stream
  /-- so are the descriptors and the epoll set -/
  kernel : t.kernel = s.kernel
  /-- nothing is sent, read or written -/
  log : t.log = s.log
  /-- only `info_valid` may have changed -/
  alike : Alike s t
  /-- a run that goes on from `t` goes on from `s` in the same way -/
  after : ∀ as u, (server env).Run (fun _ _ => True) t as u →
    ∃ u', (server env).Run (fun _ _ => True) s as u' ∧ Alike u u'
  /-- and the other way round -/
  before : ∀ as u, (server env).Run (fun _ _ => True) s as u →
    ∃ u', (server env).Run (fun _ _ => True) t as u' ∧ Alike u u'

/-- **A CLOSE of the client is ignored**, in every state and for every stream. -/
theorem close_ignored {view : Bytes} {packet : WispPacket}
    (hp : WispPacket.parse view (UInt64.ofNat view.length) = .ok packet)
    (hty : packet.packetType = packetClose)
    (hs : s.step env (.loop (.message m view)) = some t) : Ignored env s t := by
  have hmove : LoopMove env s (.message m view) t := loopStep_cases hs
  have hother : ∀ {packet' : WispPacket} {ty : UInt8},
      WispPacket.parse view (UInt64.ofNat view.length) = .ok packet' →
      packet'.packetType = ty → ty = packetClose := by
    intro packet' ty hp' hty'
    obtain rfl := Except.ok.inj (hp'.symm.trans hp)
    exact hty'.symm.trans hty
  have ht : t = s.endHandshake m := by
    cases hmove with
    | info hi hm hp' hty' => exact absurd (hother hp' hty') (by decide)
    | other => rfl
    | connect hi hm hp' hty' => exact absurd (hother hp' hty') (by decide)
    | refuse hi hm hp' hty' => exact absurd (hother hp' hty') (by decide)
    | data hi hm hp' hty' => exact absurd (hother hp' hty') (by decide)
  subst ht
  have halike := Alike.endHandshake_self s m
  exact ⟨halike.stream, halike.kernel, halike.log, halike, fun _ _ hrun => halike.symm.run hrun,
    fun _ _ hrun => halike.run hrun⟩

/-- A CLOSE for stream 1. -/
def closeMessage : Bytes := WispPacket.serialize ⟨packetClose, 1, ClosePacket.serialize 0x02⟩

/-- Stream 1 is open when its client sends the CLOSE. -/
def beforeClose : State :=
  (server {}).final (fun _ _ => True) ([.loop .opened] ++ connectLabels 0 1 7)

theorem step_closeMessage :
    beforeClose.step {} (.loop (.message 0 closeMessage)) = some (beforeClose.endHandshake 0) :=
  rfl

theorem parse_closeMessage : WispPacket.parse closeMessage (UInt64.ofNat closeMessage.length) =
    .ok ⟨packetClose, 1, ClosePacket.serialize 0x02⟩ := by
  decide +kernel

theorem close_ignored_whileOpen : Ignored {} beforeClose (beforeClose.endHandshake 0) :=
  close_ignored parse_closeMessage rfl step_closeMessage

/-- **The stream that outlives its CLOSE.** -/
theorem outlives_counterexample :
    ¬ ∀ (env : Env) (s t : State) (m : Nat) (view : Bytes) (packet : WispPacket),
      (server env).Reachable s → WispPacket.parse view (UInt64.ofNat view.length) = .ok packet →
      packet.packetType = packetClose → s.stream m packet.streamId ≠ none →
      s.step env (.loop (.message m view)) = some t →
      StreamEnded env m packet.streamId s t := by
  intro h
  have hended := h {} beforeClose _ 0 closeMessage _
    ((server {}).reaches_final (fun _ _ => True) _ (by decide +kernel)) parse_closeMessage rfl
    (by decide +kernel) step_closeMessage
  exact absurd hended.absent (by decide +kernel)

end Woeful
