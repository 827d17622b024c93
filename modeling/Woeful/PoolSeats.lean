import Mathlib.Data.List.InsertIdx
import Woeful.Pool
import Woeful.PooledServer

/-!
# The seats of the workers

What the threads of the pool have to do with the busy workers of the server: every worker is
a thread that executes its task, and the other threads that execute one are lost (`Staffed`).
Here is what each part of the program does to that, and what it is to the server.
-/

namespace Woeful

open Transition Threads

variable {env : Env} {c d : PooledState} {s t : State}

/-! ## The threads and the workers -/

/-- Whether a thread executes a task. -/
def BS.WorkerState.busy {τ : Type} : BS.WorkerState τ → Nat
  | running _ => 1
  | _ => 0

/-- The steps of the pool that the server does not see. -/
def BS.PoolLabel.quiet {τ : Type} : BS.PoolLabel τ → Bool
  | emplace _ => true
  | notifyOne _ _ => true
  | lock _ => true
  | test _ => true
  | wakeUp _ => true
  | _ => false

/-- Every busy worker is a thread, and every thread that executes a task is a busy worker, or
lost. -/
structure Staffed (env : Env) (c : PooledState) : Prop where
  /-- the pool -/
  sound : BS.Sound env.threadCount c.pool
  /-- the pool is not destroyed -/
  alive : c.pool.destructor = .alive
  /-- the loop thread is in one call of `detach_task` at most -/
  calls : c.pool.calls.length ≤ 1
  /-- nothing is left to be submitted -/
  queue : c.core.pool.queue = []
  /-- no thread is two workers -/
  nodup : c.seats.Nodup
  /-- the threads execute the tasks of the workers -/
  seats : c.seats.map (c.pool.workers[·]?) =
    c.core.pool.running.map fun w => some (.running w.task)
  /-- the other threads that execute a task are lost -/
  busy : total BS.WorkerState.busy c.pool.workers = c.seats.length + c.core.pool.lost

namespace Staffed

theorem length_seats (h : Staffed env c) : c.seats.length = c.core.pool.running.length := by
  have hlen := congrArg List.length h.seats
  rwa [List.length_map, List.length_map] at hlen

/-- The thread of a busy worker. -/
theorem exists_seat {k : Nat} {w : Worker} (h : Staffed env c)
    (hk : c.core.pool.running[k]? = some w) :
    ∃ i, c.seats[k]? = some i ∧ c.pool.workers[i]? = some (.running w.task) := by
  have hget := congrArg (·[k]?) h.seats
  simp only [List.getElem?_map, hk, Option.map_some] at hget
  obtain ⟨i, hi, hw⟩ := Option.map_eq_some_iff.mp hget
  exact ⟨i, hi, hw⟩

/-- A thread that executes no task is no worker. -/
theorem notMem_seats {i : Nat} {a : BS.WorkerState WriteTask} (h : Staffed env c)
    (hi : c.pool.workers[i]? = some a) (ha : a.busy = 0) : i ∉ c.seats := by
  intro hmem
  have hmap := List.mem_map_of_mem (f := (c.pool.workers[·]?)) hmem
  rw [h.seats, hi] at hmap
  obtain ⟨w, -, hw⟩ := List.mem_map.mp hmap
  obtain rfl := Option.some.inj hw
  cases ha

/-- A thread moves that is none of these workers. -/
theorem map_set {i : Nat} {b : BS.WorkerState WriteTask} {seats : List Nat} (hi : i ∉ seats) :
    seats.map ((c.pool.workers.set i b)[·]?) = seats.map (c.pool.workers[·]?) :=
  List.map_congr_left fun _ hj => getElem?_set_of_ne (ne_of_mem_of_not_mem hj hi)

/-- A thread moves that executes no task, before and after. -/
theorem move {i : Nat} {a b : BS.WorkerState WriteTask} {pool : BS.ThreadPool WriteTask}
    (h : Staffed env c) (hi : c.pool.workers[i]? = some a) (ha : a.busy = 0) (hb : b.busy = 0)
    (hq : pool.workers = c.pool.workers.set i b) (hsound : BS.Sound env.threadCount pool)
    (hd : pool.destructor = c.pool.destructor) (hcalls : pool.calls.length ≤ 1) :
    Staffed env { c with pool := pool } where
  sound := hsound
  alive := hd.trans h.alive
  calls := hcalls
  queue := h.queue
  nodup := h.nodup
  seats := by
    change c.seats.map (pool.workers[·]?) = _
    rw [hq, map_set (h.notMem_seats hi ha)]
    exact h.seats
  busy := by
    have hset := total_set BS.WorkerState.busy (b := b) hi
    have hbusy := h.busy
    change total _ pool.workers = c.seats.length + c.core.pool.lost
    rw [hq]
    omega

/-- No thread moves. -/
theorem keep {pool : BS.ThreadPool WriteTask} (h : Staffed env c)
    (hq : pool.workers = c.pool.workers) (hsound : BS.Sound env.threadCount pool)
    (hd : pool.destructor = c.pool.destructor) (hcalls : pool.calls.length ≤ 1) :
    Staffed env { c with pool := pool } where
  sound := hsound
  alive := hd.trans h.alive
  calls := hcalls
  queue := h.queue
  nodup := h.nodup
  seats := by
    change c.seats.map (pool.workers[·]?) = _
    rw [hq]
    exact h.seats
  busy := by
    change total _ pool.workers = _
    rw [hq]
    exact h.busy

/-- The workers go on with their tasks. -/
theorem core {core : State} (h : Staffed env c) (hqueue : core.pool.queue = [])
    (htasks : core.pool.running.map (·.task) = c.core.pool.running.map (·.task))
    (hlost : core.pool.lost = c.core.pool.lost) : Staffed env { c with core := core } where
  sound := h.sound
  alive := h.alive
  calls := h.calls
  queue := hqueue
  nodup := h.nodup
  seats := by
    have hmap := congrArg (List.map fun t => some (BS.WorkerState.running t)) htasks
    rw [List.map_map, List.map_map] at hmap
    exact h.seats.trans hmap.symm
  busy := by
    change _ = c.seats.length + core.pool.lost
    rw [hlost]
    exact h.busy

/-! ## The steps of the pool -/

/-- The call that is under way. -/
theorem calls_eq {j : Nat} {a : BS.DetachState WriteTask} (h : Staffed env c)
    (hj : c.pool.calls[j]? = some a) : c.pool.calls = [a] ∧ j = 0 := by
  have hcalls := h.calls
  have hlt := (List.getElem?_eq_some_iff.mp hj).1
  obtain ⟨b, hb⟩ := List.length_eq_one_iff.mp (Nat.le_antisymm hcalls (by omega))
  rw [hb] at hj
  rw [hb, List.length_singleton, Nat.lt_one_iff] at hlt
  subst hlt
  rw [hb, Option.some.inj hj]
  exact ⟨rfl, rfl⟩

/-- **What the server does not see.** -/
theorem quiet {l : BS.PoolLabel WriteTask} {pool : BS.ThreadPool WriteTask} (h : Staffed env c)
    (hl : l.quiet = true) (hs : c.pool.step l = some pool) :
    Staffed env { c with pool := pool } ∧
      ({ c with pool := pool } : PooledState).queue = c.queue := by
  have hsound := h.sound.step hs
  cases BS.step_cases hs with
  | @emplace j task hm hj =>
    obtain ⟨hcalls, rfl⟩ := h.calls_eq hj
    refine ⟨h.keep rfl hsound rfl ?_, ?_⟩
    · rw [List.length_set]
      exact h.calls
    · simp only [PooledState.queue, hcalls, List.set_cons_zero, List.append_assoc]
      rfl
  | @notify j i hj hi =>
    obtain ⟨hcalls, rfl⟩ := h.calls_eq hj
    refine ⟨h.move hi rfl rfl rfl hsound rfl ?_, ?_⟩
    · simp [hcalls]
    · simp [PooledState.queue, hcalls, BS.DetachState.task?]
  | @nobody j hj hnone =>
    obtain ⟨hcalls, rfl⟩ := h.calls_eq hj
    refine ⟨h.keep rfl hsound rfl ?_, ?_⟩
    · simp [hcalls]
    · simp [PooledState.queue, hcalls, BS.DetachState.task?]
  | back hm hi => exact ⟨h.move hi rfl rfl rfl hsound rfl h.calls, rfl⟩
  | last hm hi _ _ _ hd => cases h.alive.symm.trans hd
  | relock hm hi => exact ⟨h.move hi rfl rfl rfl hsound rfl h.calls, rfl⟩
  | wait hi => exact ⟨h.move hi rfl rfl rfl hsound rfl h.calls, rfl⟩
  | sleep hi => exact ⟨h.move hi rfl rfl rfl hsound rfl h.calls, rfl⟩
  | wakeUp hi => exact ⟨h.move hi rfl rfl rfl hsound rfl h.calls, rfl⟩
  | _ => cases hl

/-- **A task is taken**: the oldest one, and there is a worker for it. -/
theorem take {i : Nat} {pool : BS.ThreadPool WriteTask} (h : Staffed env c)
    (hs : c.pool.take i = some pool) :
    ∃ d, c.take i = some d ∧ Staffed env d ∧ c.abs.step env (.worker .dequeue) = some d.abs ∧
      d.pool.calls = c.pool.calls ∧ d.pool.mutex = none := by
  have hsound := h.sound.step (l := .take i) hs
  cases BS.ThreadPool.take_cases hs with
  | ret hi hstop =>
    rw [h.sound.stopped.stops_eq_nil (by rw [h.alive]; rfl)] at hstop
    cases hstop
  | @take _ task tasks hi hstop htasks =>
    have hnot := h.notMem_seats hi rfl
    have hset := total_set BS.WorkerState.busy (b := .running task) hi
    have hbusy := h.busy
    simp only [BS.WorkerState.busy] at hset
    refine ⟨⟨c.core.setRunning (c.core.pool.running ++ [⟨task, .started⟩]), { c.pool with
        tasks := tasks
        mutex := none
        tasksRunning := c.pool.tasksRunning + 1
        workers := c.pool.workers.set i (.running task)
        started := c.pool.started ++ [task] }, c.seats ++ [i]⟩, ?_,
      ⟨hsound, h.alive, h.calls, h.queue, ?_, ?_, ?_⟩, ?_, rfl, rfl⟩
    · rw [PooledState.take, hs, Option.map_some]
      dsimp only
      rw [getElem?_set_of_some hi]
    · exact List.nodup_append.mpr ⟨h.nodup, List.nodup_singleton i, fun j hj k hk hjk =>
        hnot (List.mem_singleton.mp hk ▸ hjk ▸ hj)⟩
    · change (c.seats ++ [i]).map ((c.pool.workers.set i (.running task))[·]?) =
        (c.core.pool.running ++ [_]).map _
      rw [List.map_append, List.map_append, map_set hnot, h.seats, List.map_singleton,
        getElem?_set_of_some hi]
      rfl
    · change total _ (c.pool.workers.set i (.running task)) =
        (c.seats ++ [i]).length + c.core.pool.lost
      rw [List.length_append, List.length_singleton]
      omega
    · -- the thread itself was free
      have hlt := total_lt_length (w := BS.WorkerState.busy)
        (fun w => by cases w <;> simp [BS.WorkerState.busy]) hi rfl
      rw [h.busy, h.sound.length, h.length_seats] at hlt
      have hqueue : c.abs.pool.queue =
          task :: (tasks ++ c.pool.calls.filterMap BS.DetachState.task?) := by
        change c.queue ++ c.core.pool.queue = _
        rw [h.queue, List.append_nil, PooledState.queue, htasks]
        rfl
      change c.abs.dequeue env = _
      rw [State.dequeue, hqueue]
      change (if c.core.pool.running.length + c.core.pool.lost < env.threadCount then _ else _) = _
      rw [if_pos hlt]
      simp only [PooledState.abs, State.behind, PooledState.queue, State.setRunning, h.queue,
        List.append_nil]

/-! ## The steps of the workers -/

/-- A busy worker is one no more: it returns to the pool, or is lost. -/
theorem erase {k i : Nat} {core : State} {pool : BS.ThreadPool WriteTask} (h : Staffed env c)
    (hk : c.seats[k]? = some i) (hqueue : core.pool.queue = [])
    (hrunning : core.pool.running = c.core.pool.running.eraseIdx k)
    (hworkers : ∀ j, j ≠ i → pool.workers[j]? = c.pool.workers[j]?)
    (hsound : BS.Sound env.threadCount pool) (hd : pool.destructor = c.pool.destructor)
    (hcalls : pool.calls = c.pool.calls)
    (hbusy : total BS.WorkerState.busy pool.workers + 1 + c.core.pool.lost =
      total BS.WorkerState.busy c.pool.workers + core.pool.lost) :
    Staffed env ⟨core, pool, c.seats.eraseIdx k⟩ where
  sound := hsound
  alive := hd.trans h.alive
  calls := hcalls ▸ h.calls
  queue := hqueue
  nodup := h.nodup.eraseIdx k
  seats := by
    have hnot : i ∉ c.seats.eraseIdx k := by
      intro hmem
      obtain ⟨j, hjk, hj⟩ := List.mem_eraseIdx_iff_getElem?.mp hmem
      have hlt := (List.getElem?_eq_some_iff.mp hk).1
      exact hjk ((List.getElem?_inj hlt h.nodup).mp (hk.trans hj.symm)).symm
    have hmap : (c.seats.eraseIdx k).map (pool.workers[·]?) =
        (c.seats.eraseIdx k).map (c.pool.workers[·]?) :=
      List.map_congr_left fun j hj => hworkers j (ne_of_mem_of_not_mem hj hnot)
    change (c.seats.eraseIdx k).map (pool.workers[·]?) = core.pool.running.map _
    rw [hmap, hrunning, ← List.eraseIdx_map, ← List.eraseIdx_map, h.seats]
  busy := by
    have hlt := (List.getElem?_eq_some_iff.mp hk).1
    have hold := h.busy
    change total _ pool.workers = (c.seats.eraseIdx k).length + core.pool.lost
    rw [List.length_eraseIdx_of_lt hlt]
    omega

/-- **A task returns.** -/
theorem leave {k : Nat} {w : Worker} (h : Staffed env c) (core : State)
    (hk : c.core.pool.running[k]? = some w) (hqueue : core.pool.queue = [])
    (hrunning : core.pool.running = c.core.pool.running.eraseIdx k)
    (hlost : core.pool.lost = c.core.pool.lost) :
    ∃ d, c.leave k core = some d ∧ Staffed env d ∧ d.core = core ∧ d.queue = c.queue ∧
      d.pool.mutex = c.pool.mutex ∧ d.pool.calls = c.pool.calls := by
  obtain ⟨i, hseat, hi⟩ := h.exists_seat hk
  have hfinish : c.pool.finish i = some
      ({ c.pool with finished := c.pool.finished ++ [w.task] }.setWorker i .head) := by
    rw [BS.ThreadPool.finish, hi]
  have hset := total_set BS.WorkerState.busy (b := .head) hi
  simp only [BS.WorkerState.busy] at hset
  refine ⟨_, ?_, h.erase hseat hqueue hrunning (fun j hj => getElem?_set_of_ne hj)
    (h.sound.step (l := .finish i) hfinish) rfl rfl ?_, rfl, rfl, rfl, rfl⟩
  · rw [PooledState.leave, hseat]
    dsimp only
    rw [hfinish]
    rfl
  · change total _ (c.pool.workers.set i .head) + 1 + _ = _
    omega

/-- The steps of a task. -/
theorem worker {l : WorkerLabel} (h : Staffed env c) (hl : l ≠ .dequeue)
    (hs : c.core.workerStep env l = some t) :
    ∃ d, c.workerStep l = some d ∧ Staffed env d ∧ d.core = t ∧ d.queue = c.queue ∧
      d.pool.mutex = c.pool.mutex ∧ d.pool.calls = c.pool.calls := by
  cases workerStep_cases hs with
  | dequeue => exact absurd rfl hl
  | @begin k task data hk hdata =>
    have hstep : c.core.beginTask k = some _ := hs
    refine ⟨⟨(c.core.setRunning (c.core.pool.running.set k ⟨task, .locked⟩)).record
      (.began task true), c.pool, c.seats⟩, ?_, ?_, rfl, rfl, rfl, rfl⟩
    · rw [PooledState.workerStep, hstep]
      exact congrArg (fun seats => some (PooledState.mk _ c.pool seats)) (if_pos rfl)
    · exact h.core h.queue (ThreadPool.map_task_set (w := ⟨task, .started⟩) hk _) rfl
  | @fault k task hk hdata =>
    have hstep : c.core.beginTask k = some _ := hs
    obtain ⟨i, hseat, hi⟩ := h.exists_seat hk
    refine ⟨⟨State.record { c.core with pool := { c.core.pool with
      running := c.core.pool.running.eraseIdx k, lost := c.core.pool.lost + 1 } }
      (.began task false), c.pool, c.seats.eraseIdx k⟩, ?_, ?_, rfl, rfl, rfl, rfl⟩
    · rw [PooledState.workerStep, hstep]
      exact congrArg (fun seats => some (PooledState.mk _ c.pool seats))
        (if_neg (Nat.succ_ne_self _))
    · refine h.erase hseat h.queue rfl (fun _ _ => rfl) h.sound rfl rfl ?_
      change _ = _ + (c.core.pool.lost + 1)
      omega
  | @poll k task hk =>
    have hstep : c.core.pollTask k true = some _ := hs
    refine ⟨{ c with core := c.core.setRunning (c.core.pool.running.set k ⟨task, .polled⟩) },
      ?_, ?_, rfl, rfl, rfl, rfl⟩
    · rw [PooledState.workerStep, hstep, Option.bind_some, if_pos rfl]
    · exact h.core h.queue (ThreadPool.map_task_set (w := ⟨task, .locked⟩) hk _) rfl
  | @pollFail k task hk =>
    have hstep : c.core.pollTask k false = some _ := hs
    obtain ⟨d, hd, hrest⟩ := h.leave (c.core.setRunning (c.core.pool.running.eraseIdx k))
      hk h.queue rfl rfl
    exact ⟨d, by rw [PooledState.workerStep, hstep]; exact hd, hrest⟩
  | @write k n task hk hn =>
    have hstep : c.core.writeTask k (.accepted n) = some _ := hs
    obtain ⟨d, hd, hrest⟩ := h.leave
      ((c.core.setRunning (c.core.pool.running.eraseIdx k)).record _) hk h.queue rfl rfl
    exact ⟨d, by rw [PooledState.workerStep, hstep]; exact hd, hrest⟩
  | @again k task hk =>
    have hstep : c.core.writeTask k .again = some _ := hs
    refine ⟨{ c with core := c.core.setRunning (c.core.pool.running.set k ⟨task, .locked⟩) },
      ?_, ?_, rfl, rfl, rfl, rfl⟩
    · rw [PooledState.workerStep, hstep, Option.bind_some, if_pos rfl]
    · exact h.core h.queue (ThreadPool.map_task_set (w := ⟨task, .polled⟩) hk _) rfl
  | @writeFail k task hk =>
    have hstep : c.core.writeTask k .error = some _ := hs
    obtain ⟨d, hd, hrest⟩ := h.leave (c.core.setRunning (c.core.pool.running.eraseIdx k))
      hk h.queue rfl rfl
    exact ⟨d, by rw [PooledState.workerStep, hstep]; exact hd, hrest⟩

/-! ## The steps of the loop thread and the watcher -/

/-- `submit_task`, of what a handler has submitted. -/
theorem submit (h : Staffed env c) (hcalls : c.pool.calls = [])
    (htasks : t.pool.running.map (·.task) = c.core.pool.running.map (·.task))
    (hlost : t.pool.lost = c.core.pool.lost)
    (hqueue : t.pool.queue = [] ∨ ∃ task, t.pool.queue = [task]) :
    ∃ d, c.submit t = some d ∧ Staffed env d ∧ d.abs = t.behind c.queue ∧
      d.pool.mutex = c.pool.mutex ∧
      (d.pool.calls = [] ∨ ∃ task, d.pool.calls = [.emplacing task]) := by
  rcases hqueue with hqueue | ⟨task, hqueue⟩
  · refine ⟨{ c with core := { t with pool := { t.pool with queue := [] } } }, ?_,
      h.core rfl htasks hlost, ?_, rfl, Or.inl hcalls⟩
    · rw [PooledState.submit, hqueue]
      rfl
    · rw [PooledState.abs, State.behind, State.behind, hqueue]
      rfl
  · have hdetach : c.pool.detachTask task =
        some { c.pool with calls := c.pool.calls ++ [.emplacing task] } := if_pos h.alive
    have hsound := h.sound.step (l := .detachTask task) hdetach
    refine ⟨⟨{ t with pool := { t.pool with queue := [] } },
      { c.pool with calls := c.pool.calls ++ [.emplacing task] }, c.seats⟩, ?_, ?_, ?_, rfl,
      Or.inr ⟨task, ?_⟩⟩
    · rw [PooledState.submit, hqueue, List.foldlM_cons, hdetach]
      rfl
    · have hkeep : Staffed env
          { c with pool := { c.pool with calls := c.pool.calls ++ [.emplacing task] } } :=
        h.keep rfl hsound rfl (by simp [hcalls])
      exact hkeep.core rfl htasks hlost
    · simp [PooledState.abs, State.behind, PooledState.queue, hqueue, hcalls,
        BS.DetachState.task?]
    · simp [hcalls]

/-- A step of the loop thread. -/
theorem loop {l : LoopLabel} (h : Staffed env c) (hcalls : c.pool.calls = [])
    (hs : c.core.loopStep env l = some t) :
    ∃ d, c.loopStep env l = some d ∧ Staffed env d ∧ d.abs = t.behind c.queue ∧
      d.pool.mutex = c.pool.mutex ∧
      (d.pool.calls = [] ∨ ∃ task, d.pool.calls = [.emplacing task]) := by
  have hstep : c.loopStep env l = c.submit t := by
    rw [PooledState.loopStep, if_pos (List.isEmpty_iff.mpr hcalls), hs]
    rfl
  rw [hstep]
  cases (loopStep_cases hs).poolMove with
  | same hpool =>
    exact h.submit hcalls (by rw [hpool]) (by rw [hpool]) (Or.inl (by rw [hpool, h.queue]))
  | @submit _ m packet _ _ hpool =>
    refine h.submit hcalls (by rw [hpool]) (by rw [hpool]) (Or.inr ⟨c.core.taskFor m packet, ?_⟩)
    rw [hpool]
    change c.core.pool.queue ++ [_] = _
    rw [h.queue]
    rfl

end Staffed

/-- The watcher and the hash tables leave the pool alone. -/
theorem pool_of_step {l : Label} (hs : s.step env l = some t) (hloop : ∀ l', l ≠ .loop l')
    (hworker : ∀ l', l ≠ .worker l') : t.pool = s.pool := by
  cases l with
  | loop l => exact absurd rfl (hloop l)
  | watch l => exact (watchStep_cases hs).pool
  | worker l => exact absurd rfl (hworker l)
  | rehash m streams => rw [(State.rehash_frame hs).2]
  | rehashSockets ms => rw [(State.rehashSockets_frame hs).2.2]

/-- Nor does the program do anything about it. -/
theorem Staffed.other {l : Label} (h : Staffed env c) (hs : c.core.step env l = some t)
    (hloop : ∀ l', l ≠ .loop l') (hworker : ∀ l', l ≠ .worker l') :
    c.step env (.server l) = some { c with core := t } ∧ Staffed env { c with core := t } := by
  have hpool := pool_of_step hs hloop hworker
  refine ⟨?_, h.core (hpool ▸ h.queue) (by rw [hpool]) (by rw [hpool])⟩
  cases l with
  | loop l => exact absurd rfl (hloop l)
  | worker l => exact absurd rfl (hworker l)
  | _ => exact congrArg (Option.map _) hs

/-- Everything but a task that is taken is the same in the server and in the program. -/
theorem PooledState.abs_step {l : Label} (hs : c.core.step env l = some t)
    (hl : l ≠ .worker .dequeue) : c.abs.step env l = some (t.behind c.queue) := by
  rw [PooledState.abs, State.step_behind hl, hs]
  rfl

end Woeful
