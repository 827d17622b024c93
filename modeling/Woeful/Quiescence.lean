import Woeful.Delivery
import Woeful.Lib.Progress
import Woeful.Lib.Threads
import Woeful.Locks
import Woeful.Sweep
import Woeful.WatcherWork

/-!
# The server comes to rest

The loop thread waits for locks that the workers hold, closures wait for the loop thread, and
the watcher makes closures. What its threads can do while nothing new comes from outside is
bounded by the `work` that is left, and in the end they all stand still. Three things they do
wait for somebody outside: the `poll` of a task, `connect`, and the search for an address. Where
nobody can go on but by one of these the server is `Paused`, and then a task is in `poll`, or
the loop thread is in one of the others, or waits for the lock of a task that is in `poll`
(`Waiting`); a target that does not read can keep it there (`Locks`). Where these return as well,
the server settles: every handler has returned, every closure has run, and every task that a
worker is there for is done (`AllDone`). Nothing that was read from a target is left behind
then (`downloads_complete`).
-/

namespace Woeful

open Memory Transition Threads

variable {env : Env} {s t : State} {l : Label}

/-! ## The work that is left -/

/-- The steps of the server while nothing comes from outside: no websocket event, and no event
of a target. A `write` does not have to be made again. -/
def Label.settling : Label → Bool
  | .loop .opened => false
  | .loop (.message _ _) => false
  | .loop (.drain _) => false
  | .loop (.close _) => false
  | .loop _ => true
  | .watch (.wait _) => false
  | .watch _ => true
  | .worker (.write _ .again) => false
  | .worker _ => true
  | .rehash _ _ => false
  | .rehashSockets _ => false

/-- What a worker has to do. -/
def Worker.work : Worker → Nat
  | ⟨_, .started⟩ => 3
  | ⟨_, .locked⟩ => 2
  | ⟨_, .polled⟩ => 1

/-- What the pool has to do. -/
def ThreadPool.work (pool : ThreadPool) : Nat :=
  4 * pool.queue.length + total Worker.work pool.running

/-- The number of streams of manager `m`. -/
def State.streamCount (s : State) (m : Nat) : Nat :=
  ((s.managers.lookup m).elim [] (·.streams.keys)).length

/-- What the loop thread has to do in its handler or closure, with so many websockets and so
many streams for each. -/
def LoopState.work (watched : Nat) (streams : Nat → Nat) : LoopState → Nat
  | idle => 0
  | socket _ => 4
  | connect _ _ => 3
  | pushFd _ _ => 2
  | insert _ _ => 1
  | forceClose m => streams m + 2
  | closing _ ids => ids.length + 1
  | closeFound _ _ _ => watched + 4
  | decrement => watched + 3
  | check => watched + 2
  | sweep ms => ms.length + 1

/-- The closures that are still to run: for the passes, and for the events. -/
def State.closuresLeft (s : State) : Nat := s.pendingPasses.length + s.watcher.events.length

/-- What is left to do. -/
def State.work (s : State) : Nat :=
  s.watcher.work + (s.watcher.watchedSockets.length + 5) * s.closuresLeft +
    s.loop.work s.watcher.watchedSockets.length s.streamCount + s.pool.work

/-! ## Every step leaves less -/

/-- A handler goes on. -/
theorem work_lt_of_handler {a b : LoopState} (ha : s.loop = a) (hb : t.loop = b)
    (hphase : t.watcher.phase = s.watcher.phase) (hevents : t.watcher.events = s.watcher.events)
    (hdeferred : t.deferred = s.deferred) (hpool : t.pool = s.pool)
    (hwatched : t.watcher.watchedSockets.length ≤ s.watcher.watchedSockets.length)
    (hlt : b.work t.watcher.watchedSockets.length t.streamCount <
      a.work s.watcher.watchedSockets.length s.streamCount) : t.work < s.work := by
  have hwork : t.watcher.work = s.watcher.work := by
    rw [SystemWatcher.work, SystemWatcher.work, hphase, hevents]
  have hleft : t.closuresLeft = s.closuresLeft := by
    rw [State.closuresLeft, State.closuresLeft, State.pendingPasses, State.pendingPasses,
      hphase, hevents, hdeferred]
  have hmul := Nat.mul_le_mul_right s.closuresLeft (Nat.add_le_add_right hwatched 5)
  rw [State.work, State.work, hwork, hleft, hpool, ha, hb]
  omega

/-- What the closure has to do after its sends. -/
theorem LoopState.work_afterDeliver {p : Pass} {found : List (Nat × UInt32)} {n : Nat}
    {f : Nat → Nat} : (State.afterDeliver p found).work n f ≤ n + 4 := by
  rw [State.afterDeliver]
  split
  · exact Nat.le_succ _
  · split
    · exact Nat.le_refl _
    · exact Nat.le_succ _

/-- A closure runs: it may yet have to close its stream, and to sweep. -/
theorem work_lt_of_deferred {b : LoopState} {p : Pass} {rest : List Pass} (hi : s.loop = .idle)
    (hd : s.deferred = p :: rest) (hb : t.loop = b) (hwatcher : t.watcher = s.watcher)
    (hdeferred : t.deferred = rest) (hpool : t.pool = s.pool)
    (hle : b.work t.watcher.watchedSockets.length t.streamCount ≤
      t.watcher.watchedSockets.length + 4) : t.work < s.work := by
  have hleft : s.closuresLeft = t.closuresLeft + 1 := by
    simp only [State.closuresLeft, State.pendingPasses, List.length_append, hd, hdeferred, hwatcher,
      List.length_cons]
    omega
  rw [hwatcher] at hle
  rw [State.work, State.work, hb, hi, hwatcher, hpool, hleft, Nat.mul_succ]
  omega

theorem LoopMove.work_lt {l : LoopLabel} (hs : LoopMove env s l t)
    (hl : (Label.loop l).settling = true) : t.work < s.work := by
  cases hs with
  | opened | info | other | connect | refuse | data | drain | close => cases hl
  | @deferred p rest hi hd =>
    rw [State.foldl_deliver_frame]
    exact work_lt_of_deferred hi hd rfl rfl rfl rfl LoopState.work_afterDeliver
  | socketFail h => exact work_lt_of_handler h rfl rfl rfl rfl rfl le_rfl (Nat.succ_pos _)
  | socket _ h => exact work_lt_of_handler h rfl rfl rfl rfl rfl le_rfl (Nat.lt_succ_self _)
  | connected h => exact work_lt_of_handler h rfl rfl rfl rfl rfl le_rfl (Nat.lt_succ_self _)
  | connectFail h => exact work_lt_of_handler h rfl rfl rfl rfl rfl le_rfl (Nat.succ_pos _)
  | pushFd h => exact work_lt_of_handler h rfl rfl rfl rfl rfl le_rfl (Nat.lt_succ_self _)
  | insert h => exact work_lt_of_handler h rfl rfl rfl rfl rfl le_rfl (Nat.lt_succ_self _)
  | listIds h => exact work_lt_of_handler h rfl rfl rfl rfl rfl le_rfl (Nat.lt_succ_self _)
  | closeNext h => exact work_lt_of_handler h rfl rfl rfl rfl rfl le_rfl (Nat.lt_succ_self _)
  | destruct h =>
    exact work_lt_of_handler h rfl rfl rfl rfl rfl (List.length_filter_le ..) (Nat.lt_succ_self _)
  | closeFound h => exact work_lt_of_handler h rfl rfl rfl rfl rfl le_rfl (Nat.lt_succ_self _)
  | decrement h => exact work_lt_of_handler h rfl rfl rfl rfl rfl le_rfl (Nat.lt_succ_self _)
  | check h =>
    refine work_lt_of_handler h rfl rfl rfl rfl rfl le_rfl ?_
    rw [State.checkQueue]
    dsimp only
    split
    · exact Nat.lt_succ_self _
    · exact Nat.succ_pos _
  | sweepDone h => exact work_lt_of_handler h rfl rfl rfl rfl rfl le_rfl (Nat.lt_succ_self _)
  | @sweep m ms h =>
    rw [State.updateStreams_frame]
    exact work_lt_of_handler h rfl rfl rfl rfl rfl le_rfl (Nat.lt_succ_self _)

/-- The watcher goes on: what it leaves to the loop thread is counted with the event. -/
theorem work_lt_of_watch (hs : WatchMove env s t) (hwait : s.watcher.phase ≠ .wait) :
    t.work < s.work := by
  have hwork := hs.work_lt hwait
  have hwatched : t.watcher.watchedSockets = s.watcher.watchedSockets := hs.sameTable.watched
  have hleft : t.closuresLeft ≤ s.closuresLeft := by
    simp only [State.closuresLeft, State.pendingPasses, List.length_append]
    cases hs with
    | wait hphase => exact absurd hphase hwait
    | done hphase => simp [hphase, State.setPhase, WatcherPhase.pass?]
    | skip _ hevents => simp [hevents]
    | start hphase hevents => simp [hphase, hevents, WatcherPhase.pass?]; omega
    | @read p result hphase =>
      have hpass := State.pass?_afterRead (p.read ⟨s.kernel.sockAt p.fd, result⟩) result
      rw [hphase]
      exact Nat.add_le_add_right (Nat.add_le_add_left (congrArg (·.toList.length) hpass).le _) _
    | erase hphase => simp [hphase, State.setPhase, WatcherPhase.pass?]
    | count hphase => simp [hphase, WatcherPhase.pass?]
    | defer hphase => simp [hphase, State.setPhase, WatcherPhase.pass?]
  have hstreams : t.streamCount = s.streamCount := by
    funext m
    rw [State.streamCount, State.streamCount, hs.managers]
  have hmul := Nat.mul_le_mul_left (s.watcher.watchedSockets.length + 5) hleft
  rw [State.work, State.work, hwatched, hs.loop, hs.pool, hstreams]
  omega

/-- A worker goes on with its task. -/
theorem ThreadPool.work_set {pool : ThreadPool} {i : Nat} {a b : Worker}
    (hi : pool.running[i]? = some a) (hlt : b.work < a.work) :
    ({ pool with running := pool.running.set i b } : ThreadPool).work < pool.work := by
  have hset := total_set Worker.work (b := b) hi
  rw [ThreadPool.work, ThreadPool.work]
  dsimp only
  omega

/-- A worker is done with it. -/
theorem ThreadPool.work_eraseIdx {pool : ThreadPool} {i lost : Nat} {a : Worker}
    (hi : pool.running[i]? = some a) :
    (⟨pool.queue, pool.running.eraseIdx i, lost⟩ : ThreadPool).work < pool.work := by
  have herase := total_eraseIdx Worker.work hi
  have hpos : 0 < a.work := by
    obtain ⟨task, phase⟩ := a
    cases phase <;> exact Nat.succ_pos _
  rw [ThreadPool.work, ThreadPool.work]
  dsimp only
  omega

theorem WorkerMove.work_lt {l : WorkerLabel} (hs : WorkerMove env s l t)
    (hl : (Label.worker l).settling = true) : t.work < s.work := by
  have hpool : t.pool.work < s.pool.work := by
    cases hs with
    | dequeue hq =>
      simp only [ThreadPool.work, hq, List.length_cons, total_append, total_cons, total_nil,
        Worker.work]
      omega
    | begin hi => exact ThreadPool.work_set hi (Nat.lt_succ_self _)
    | fault hi => exact ThreadPool.work_eraseIdx hi
    | poll hi => exact ThreadPool.work_set hi (Nat.lt_succ_self _)
    | pollFail hi => exact ThreadPool.work_eraseIdx hi
    | write hi => exact ThreadPool.work_eraseIdx hi
    | again => cases hl
    | writeFail hi => exact ThreadPool.work_eraseIdx hi
  rw [hs.frame]
  exact Nat.add_lt_add_left hpool _

/-- **Every step of a server that settles leaves less to do.** -/
theorem State.work_lt (hs : s.step env l = some t) (hl : l.settling = true) : t.work < s.work := by
  cases l with
  | loop l => exact (loopStep_cases hs).work_lt hl
  | watch l =>
    refine work_lt_of_watch (watchStep_cases hs) fun hphase => ?_
    obtain ⟨events, rfl⟩ := (State.watchStep_label hs).1 hphase
    cases hl
  | worker l => exact (workerStep_cases hs).work_lt hl
  | _ => cases hl

/-! ## Where nobody can go on -/

/-- The steps that wait for somebody outside: the return of `poll`, of `connect`, and of the
search for an address. -/
def Label.awaits : Label → Bool
  | .loop (.socket _) => true
  | .loop (.connect _) => true
  | .worker (.poll _ _) => true
  | _ => false

/-- The loop thread waits for such a return. -/
def LoopState.awaits : LoopState → Bool
  | socket _ => true
  | connect _ _ => true
  | _ => false

/-- No thread can go on by itself. -/
abbrev Paused (env : Env) (s : State) : Prop :=
  (server env).AtRest (fun _ l => l.settling = true ∧ l.awaits = false) s

/-- No thread can go on at all, so no `poll`, `connect` or search for an address is pending
either. -/
abbrev Quiescent (env : Env) (s : State) : Prop :=
  (server env).AtRest (fun _ l => l.settling = true) s

/-- Every thread has nothing to do, or waits, and in the end for somebody outside. -/
structure Waiting (env : Env) (s : State) : Prop where
  /-- the watcher is in `epoll.wait` -/
  phase : s.watcher.phase = .wait
  /-- a task is in `poll` -/
  running : ∀ w ∈ s.pool.running, w.phase = .locked
  /-- or it has no worker yet -/
  queue : s.pool.queue = [] ∨ env.threadCount ≤ s.pool.running.length + s.pool.lost
  /-- the loop thread is between two events, or waits for a return, or for the lock of a task -/
  loop : s.loop = .idle ∧ s.deferred = [] ∨ s.loop.awaits = true ∨
    ∃ m, s.loop.wants? = some m ∧ ∃ w ∈ s.pool.running, w.holds m

/-- Everything is done, unless all workers were lost to a stream that was closed before its task
began. -/
structure AllDone (env : Env) (s : State) : Prop where
  /-- the loop thread is between two events -/
  loop : s.loop = .idle
  /-- every closure has run -/
  deferred : s.deferred = []
  /-- and was counted -/
  sendQueueLen : s.watcher.sendQueueLen = 0
  /-- the watcher is in `epoll.wait` -/
  phase : s.watcher.phase = .wait
  /-- no task is being executed -/
  running : s.pool.running = []
  /-- and none is left -/
  queue : s.pool.queue = [] ∨ env.threadCount ≤ s.pool.lost

namespace Paused

/-- A task that is not in `poll` can go on. -/
theorem running (h : Paused env s) : ∀ w ∈ s.pool.running, w.phase = .locked := by
  rintro ⟨task, phase⟩ hw
  obtain ⟨i, hi⟩ := List.mem_iff_getElem?.mp hw
  cases phase with
  | started =>
    have hbegin : s.beginTask i = none := h (.worker (.begin i)) ⟨rfl, rfl⟩
    rw [State.beginTask, hi] at hbegin
    dsimp only at hbegin
    split at hbegin <;> cases hbegin
  | locked => rfl
  | polled =>
    have hwrite : s.writeTask i .error = none := h (.worker (.write i .error)) ⟨rfl, rfl⟩
    rw [State.writeTask, hi] at hwrite
    cases hwrite

/-- A worker that has no task can take one. -/
theorem queue (h : Paused env s) :
    s.pool.queue = [] ∨ env.threadCount ≤ s.pool.running.length + s.pool.lost := by
  cases hq : s.pool.queue with
  | nil => exact Or.inl rfl
  | cons task queue =>
    right
    have hdequeue : s.dequeue env = none := h (.worker .dequeue) ⟨rfl, rfl⟩
    rw [State.dequeue, hq] at hdequeue
    dsimp only at hdequeue
    by_contra hlt
    rw [if_pos (Nat.lt_of_not_le hlt)] at hdequeue
    cases hdequeue

/-- The watcher is in `epoll.wait`. -/
theorem phase (h : Paused env s) : s.watcher.phase = .wait := by
  by_contra hphase
  obtain ⟨l, hl, hne⟩ := @State.watchStep_possible env s hphase
  refine hne (h (.watch l) ?_)
  cases l with
  | wait events => exact absurd rfl (hl events)
  | _ => exact ⟨rfl, rfl⟩

/-- A loop thread that waits for a lock waits for a task that has it. -/
theorem loop (h : Paused env s) : s.loop = .idle ∧ s.deferred = [] ∨ s.loop.awaits = true ∨
    ∃ m, s.loop.wants? = some m ∧ ∃ w ∈ s.pool.running, w.holds m := by
  have hresume : s.resume env = none := h (.loop .resume) ⟨rfl, rfl⟩
  cases hw : s.loop.wants? with
  | some m =>
    refine Or.inr (Or.inr ⟨m, rfl, ?_⟩)
    by_contra hholder
    push Not at hholder
    obtain ⟨u, hu⟩ := @State.resume_of_wants env _ _ hw (State.lockFree_of_no_holder hholder)
    cases hresume.symm.trans hu
  | none =>
    rw [State.resume] at hresume
    cases hl : s.loop with
    | idle =>
      have hrun : s.loopStep env .deferred = none := h (.loop .deferred) ⟨rfl, rfl⟩
      rw [State.loopStep, if_pos hl, State.runDeferred] at hrun
      cases hd : s.deferred with
      | nil => exact Or.inl ⟨rfl, rfl⟩
      | cons p rest =>
        rw [hd] at hrun
        cases hrun
    | socket | connect => exact Or.inr (Or.inl rfl)
    | pushFd c fd =>
      have hpush : s.loopStep env (.pushFd true) = none := h (.loop (.pushFd true)) ⟨rfl, rfl⟩
      rw [State.loopStep, hl] at hpush
      cases hpush
    | closing m ids =>
      rw [hl] at hw hresume
      cases ids with
      | nil => cases hresume
      | cons id ids => cases hw
    | decrement | check | sweep =>
      rw [hl] at hresume
      cases hresume
    | insert | forceClose | closeFound =>
      rw [hl] at hw
      cases hw

theorem waiting (h : Paused env s) : Waiting env s := ⟨h.phase, h.running, h.queue, h.loop⟩

end Paused

namespace Waiting

/-- The loop thread stands still. -/
theorem loopStep {l : LoopLabel} (h : Waiting env s) (hl : (Label.loop l).settling = true)
    (ha : (Label.loop l).awaits = false) : s.loopStep env l = none := by
  by_contra hne
  obtain ⟨t, hs⟩ := Option.ne_none_iff_exists'.mp hne
  rcases h.loop with ⟨hi, hd⟩ | hawaits | ⟨m, hwants, w, hw, hm, hphase⟩
  · cases loopStep_cases hs with
    | opened | info | other | connect | refuse | data | drain | close => cases hl
    | deferred _ hcons => cases hd.symm.trans hcons
    | socketFail | socket | connected | connectFail => cases ha
    | pushFd hloop | insert hloop | listIds hloop | closeNext hloop | destruct hloop
    | closeFound hloop | decrement hloop | check hloop | sweepDone hloop | sweep hloop =>
      cases hi.symm.trans hloop
  · cases loopStep_cases hs with
    | opened | info | other | connect | refuse | data | drain | close => cases hl
    | socketFail | socket | connected | connectFail => cases ha
    | deferred hloop | pushFd hloop | insert hloop | listIds hloop | closeNext hloop
    | destruct hloop | closeFound hloop | decrement hloop | check hloop | sweepDone hloop
    | sweep hloop =>
      rw [hloop] at hawaits
      cases hawaits
  · exact hphase (State.lockFree_started (State.loopStep_of_wants hwants hs) hw hm)

/-- So do the workers. -/
theorem workerStep {l : WorkerLabel} (h : Waiting env s) (hl : (Label.worker l).settling = true)
    (ha : (Label.worker l).awaits = false) : s.workerStep env l = none := by
  have hpolls : ∀ {i : Nat} {task : WriteTask} {phase : TaskPhase},
      s.pool.running[i]? = some ⟨task, phase⟩ → phase = .locked :=
    fun hi => h.running _ (List.mem_of_getElem? hi)
  by_contra hne
  obtain ⟨t, hs⟩ := Option.ne_none_iff_exists'.mp hne
  cases workerStep_cases hs with
  | dequeue hq hlt =>
    rcases h.queue with hnil | hle
    · cases hnil.symm.trans hq
    · exact Nat.not_lt.mpr hle hlt
  | begin hi | fault hi | write hi | writeFail hi => cases hpolls hi
  | again => cases hl
  | poll | pollFail => cases ha

/-- **A server that waits is paused.** -/
theorem paused (h : Waiting env s) : Paused env s := by
  rintro l ⟨hl, ha⟩
  cases l with
  | loop l => exact h.loopStep hl ha
  | watch l =>
    by_contra hne
    obtain ⟨t, hs⟩ := Option.ne_none_iff_exists'.mp hne
    obtain ⟨events, rfl⟩ := (State.watchStep_label hs).1 h.phase
    cases hl
  | worker l => exact h.workerStep hl ha
  | _ => cases hl

end Waiting

namespace Quiescent

theorem paused (h : Quiescent env s) : Paused env s := h.mono fun _ hl => hl.1

/-- No worker has a task: its `poll` could return. -/
theorem running (h : Quiescent env s) : s.pool.running = [] := by
  by_contra hne
  obtain ⟨⟨task, phase⟩, ws, hws⟩ := List.exists_cons_of_ne_nil hne
  have hi : s.pool.running[0]? = some ⟨task, phase⟩ := by
    rw [hws]
    rfl
  obtain rfl : phase = .locked := h.paused.running _ (List.mem_of_getElem? hi)
  have hpoll : s.pollTask 0 true = none := h (.worker (.poll 0 true)) rfl
  rw [State.pollTask, hi] at hpoll
  cases hpoll

/-- The loop thread gets every lock, so it is between two events. -/
theorem loop (h : Quiescent env s) : s.loop = .idle ∧ s.deferred = [] := by
  rcases h.paused.loop with hi | hawaits | ⟨m, -, w, hw, -⟩
  · exact hi
  · cases hl : s.loop with
    | socket c =>
      have hsocket : s.loopStep env (.socket none) = none := h (.loop (.socket none)) rfl
      rw [State.loopStep, hl] at hsocket
      cases hsocket
    | connect c fd =>
      have hconnect : s.loopStep env (.connect true) = none := h (.loop (.connect true)) rfl
      rw [State.loopStep, hl] at hconnect
      cases hconnect
    | _ =>
      rw [hl] at hawaits
      cases hawaits
  · rw [h.running] at hw
    cases hw

/-- A task is left only if there is no worker left. -/
theorem queue (h : Quiescent env s) : s.pool.queue = [] ∨ env.threadCount ≤ s.pool.lost := by
  have hqueue := h.paused.queue
  rwa [h.running, List.length_nil, Nat.zero_add] at hqueue

theorem allDone (h : Quiescent env s) (hs : (server env).Reachable s) : AllDone env s where
  loop := h.loop.1
  deferred := h.loop.2
  sendQueueLen := by
    rw [sendQueueLen_eq hs, h.paused.phase, h.loop.1, h.loop.2]
    rfl
  phase := h.paused.phase
  running := h.running
  queue := h.queue

end Quiescent

/-- **A server that has settled has nothing to do.** -/
theorem AllDone.quiescent (h : AllDone env s) : Quiescent env s := by
  have hpaused : Paused env s := by
    refine Waiting.paused ⟨h.phase, fun w hw => ?_, ?_, Or.inl ⟨h.loop, h.deferred⟩⟩
    · rw [h.running] at hw
      cases hw
    · rw [h.running, List.length_nil, Nat.zero_add]
      exact h.queue
  intro l hl
  cases ha : l.awaits with
  | false => exact hpaused l ⟨hl, ha⟩
  | true =>
    cases l with
    | loop l =>
      cases l with
      | socket fd =>
        change s.loopStep env (.socket fd) = none
        rw [State.loopStep, h.loop]
      | connect ok =>
        change s.loopStep env (.connect ok) = none
        rw [State.loopStep, h.loop]
      | _ => cases ha
    | worker l =>
      cases l with
      | poll i ok =>
        change s.pollTask i ok = none
        rw [State.pollTask, h.running]
        rfl
      | _ => cases ha
    | _ => cases ha

/-! ## The results -/

/-- A payload is submitted and another one was read, and nothing else has happened to them. -/
def upAndDown : State :=
  (server {}).final (fun s l => s.connectsUnused l = true)
    ([.loop .opened] ++ connectLabels 0 1 7 ++ [dataLabel 0 1 [1, 2, 3]] ++
      passLabels 7 [.bytes [104, 105], .again])

/-- The closure and the task, in turns. -/
def settleBoth : List Label :=
  [.worker .dequeue, .loop .deferred, .worker (.begin 0), .loop .resume, .worker (.poll 0 true),
    .loop .resume, .worker (.write 0 (.accepted 3)), .loop .resume, .loop .resume]

/-- Both are done. -/
def upAndDownSettled : State :=
  ((server {}).replay (fun _ l => l.settling = true) upAndDown settleBoth).getD upAndDown

theorem upAndDown_reaches :
    (server {}).Reaches (fun s l => s.connectsUnused l = true) upAndDown :=
  System.reaches_final _ _ _ (by decide +kernel)

theorem run_settleBoth :
    (server {}).Run (fun _ l => l.settling = true) upAndDown settleBoth upAndDownSettled :=
  System.Run.of_replay_getD (by decide +kernel)

theorem upAndDownSettled_quiescent : Quiescent {} upAndDownSettled := by
  refine AllDone.quiescent ⟨?_, ?_, ?_, ?_, ?_, Or.inl ?_⟩ <;> decide +kernel

/-- A target that does not read: the task waits for it, and `force_close` for the task. -/
example : Waiting {} slowTargetClosing ∧ ¬ Quiescent {} slowTargetClosing := by
  refine ⟨⟨by decide +kernel, by decide +kernel, Or.inl (by decide +kernel), Or.inr (Or.inr ?_)⟩,
    fun h => ?_⟩
  · exact ⟨0, by decide +kernel, ⟨⟨0, ⟨packetData, 1, [3]⟩, some 0⟩, .locked⟩, by decide +kernel,
      rfl, nofun⟩
  · exact absurd h.running (by decide +kernel)

/-- **Nothing is left behind**: in the runs in which delivery is in order, the server can come to
rest from any state, and when it has, and no `poll`, `connect` or search for an address is
pending either, it has sent everything that it ever read, on every stream. -/
theorem downloads_complete (hstatus : ∀ n, env.status n ≠ .dropped)
    (h : (server env).Reaches (fun s l => s.connectsUnused l = true) s) :
    (∃ ls t, (server env).Run (fun _ l => l.settling = true) s ls t ∧ Quiescent env t) ∧
      ∀ ls t, (server env).Run (fun _ l => l.settling = true) s ls t → Quiescent env t →
        ∀ k, delivered k t.log = arrived k t.log := by
  refine ⟨System.exists_rest (fun _ _ _ hl hs => State.work_lt hs hl) s, ?_⟩
  intro ls t hrun hrest k
  have hreach : (server env).Reaches (fun s l => s.connectsUnused l = true) t := by
    refine h.append (hrun.mono fun s l hl => ?_)
    -- the guard is about messages and close handlers
    cases l with
    | loop l =>
      cases l with
      | message | close => cases hl
      | _ => rfl
    | _ => rfl
  have hdelivering : Delivering env t :=
    hreach.invariant (.initial env) fun _ _ _ hg hst hI => hI.step hst hg hstatus
  have hall := hdelivering.delivered.lossless k
  rw [State.awaiting, State.pendingPasses, hrest.loop.2, hrest.paused.phase] at hall
  exact (List.append_nil _).symm.trans hall

theorem downloads_complete_upAndDown :
    (∃ ls t, (server {}).Run (fun _ l => l.settling = true) upAndDown ls t ∧ Quiescent {} t) ∧
      ∀ k, delivered k upAndDownSettled.log = arrived k upAndDownSettled.log := by
  obtain ⟨hsettles, hall⟩ :=
    @downloads_complete {} _ (fun _ h => nomatch h) upAndDown_reaches
  exact ⟨hsettles, hall settleBoth _ run_settleBoth upAndDownSettled_quiescent⟩

end Woeful
