import Woeful.Lib.Refinement
import Woeful.PoolRest
import Woeful.PoolSeats

/-!
# The pool is a queue

The server over its thread pool does what `server` says, and everything that `server` says:
the runs of `server` are what is visible of the runs of `pooled` (`pooled_iff`). So whatever
holds of the server in every run holds of the program with its mutex, its condition variables
and their wake-ups, and no run that `server` allows is an artefact of the queue.
-/

namespace Woeful

open Transition Threads

variable {env : Env} {c d : PooledState} {s t : State}

/-! ## From the program to the server -/

/-- **A step of the program** is one of the server, or not seen. -/
theorem Staffed.step {l : PooledLabel} (h : Staffed env c) (hs : c.step env l = some d) :
    Staffed env d ∧ (server env).Run (fun _ _ => True) c.abs l.visible d.abs := by
  have hsingle : ∀ {l : Label}, c.abs.step env l = some d.abs →
      (server env).Run (fun _ _ => True) c.abs [l] d.abs :=
    fun hst => .single trivial hst
  cases l with
  | server l =>
    cases l with
    | loop l =>
      have hs' : c.loopStep env l = some d := hs
      rw [PooledState.loopStep, Option.ite_none_right_eq_some, Option.bind_eq_some_iff] at hs'
      obtain ⟨hcalls, t, ht, -⟩ := hs'
      obtain ⟨d', hd', hstaffed, habs, -⟩ := h.loop (List.isEmpty_iff.mp hcalls) ht
      obtain rfl := Option.some.inj (hd'.symm.trans hs)
      refine ⟨hstaffed, hsingle (l := .loop l) ?_⟩
      rw [habs]
      exact PooledState.abs_step ht (by simp)
    | worker l =>
      have hl : l ≠ .dequeue := by
        rintro rfl
        cases hs
      have hcore : ∃ t, c.core.workerStep env l = some t := by
        have hs' : c.workerStep l = some d := hs
        cases l with
        | dequeue => exact absurd rfl hl
        | begin k =>
          obtain ⟨t, ht, -⟩ := Option.map_eq_some_iff.mp hs'
          exact ⟨t, ht⟩
        | poll k ok =>
          obtain ⟨t, ht, -⟩ := Option.bind_eq_some_iff.mp hs'
          exact ⟨t, ht⟩
        | write k res =>
          obtain ⟨t, ht, -⟩ := Option.bind_eq_some_iff.mp hs'
          exact ⟨t, ht⟩
      obtain ⟨t, ht⟩ := hcore
      obtain ⟨d', hd', hstaffed, hcore, hqueue, -⟩ := h.worker hl ht
      obtain rfl := Option.some.inj (hd'.symm.trans hs)
      refine ⟨hstaffed, hsingle (l := .worker l) ?_⟩
      have habs : d'.abs = t.behind c.queue := by rw [PooledState.abs, hcore, hqueue]
      rw [habs]
      exact PooledState.abs_step ht fun heq => hl (Label.worker.inj heq)
    | _ =>
      obtain ⟨t, ht, rfl⟩ := Option.map_eq_some_iff.mp hs
      exact ⟨(h.other ht (by simp) (by simp)).2, hsingle (PooledState.abs_step ht (by simp))⟩
  | pool l =>
    have hquiet : ∀ l : BS.PoolLabel WriteTask, l.quiet = true →
        ∀ pool, c.pool.step l = some pool → d = { c with pool := pool } →
        Staffed env d ∧ (server env).Run (fun _ _ => True) c.abs [] d.abs := by
      rintro l hl pool hp rfl
      obtain ⟨hstaffed, hqueue⟩ := h.quiet hl hp
      refine ⟨hstaffed, ?_⟩
      have habs : ({ c with pool := pool } : PooledState).abs = c.abs := by
        rw [PooledState.abs, PooledState.abs, hqueue]
      rw [habs]
      exact .nil _
    cases l with
    | take i =>
      obtain ⟨pool, hp, -⟩ := Option.map_eq_some_iff.mp hs
      obtain ⟨d', hd', hstaffed, hst, -⟩ := h.take hp
      obtain rfl := Option.some.inj (hd'.symm.trans hs)
      exact ⟨hstaffed, hsingle hst⟩
    | emplace j =>
      obtain ⟨pool, hp, rfl⟩ := Option.map_eq_some_iff.mp hs
      exact hquiet (.emplace j) rfl pool hp rfl
    | notifyOne j i =>
      obtain ⟨pool, hp, rfl⟩ := Option.map_eq_some_iff.mp hs
      exact hquiet (.notifyOne j i) rfl pool hp rfl
    | lock i =>
      obtain ⟨pool, hp, rfl⟩ := Option.map_eq_some_iff.mp hs
      exact hquiet (.lock i) rfl pool hp rfl
    | test i =>
      obtain ⟨pool, hp, rfl⟩ := Option.map_eq_some_iff.mp hs
      exact hquiet (.test i) rfl pool hp rfl
    | wakeUp i =>
      obtain ⟨pool, hp, rfl⟩ := Option.map_eq_some_iff.mp hs
      exact hquiet (.wakeUp i) rfl pool hp rfl
    | _ => cases hs

theorem Staffed.initial (env : Env) : Staffed env (pooled env).init where
  sound := .create _
  alive := rfl
  calls := Nat.zero_le _
  queue := rfl
  nodup := List.nodup_nil
  seats := rfl
  busy := by
    change total _ (List.replicate env.threadCount _) = 0
    simp [BS.WorkerState.busy]

/-! ## From the server to the program -/

/-- The pool is at a point where everything is possible. -/
structure AtEase (env : Env) (c : PooledState) : Prop extends Staffed env c where
  /-- `submit_task` has returned -/
  idle : c.pool.calls = []
  /-- nobody has the mutex -/
  free : c.pool.mutex = none

namespace BS

variable {τ : Type} {n : Nat} {p q : ThreadPool τ}

/-- A call that is to put a task into the queue can go on to its end. -/
theorem exists_notified {task : τ} (hcalls : p.calls = [.emplacing task])
    (hmutex : p.mutex = none) : ∃ ls q, (pool τ n).Run (fun _ l => l.quiet = true) p ls q ∧
      q.calls = [] ∧ q.mutex = none := by
  have hj : p.calls[0]? = some (.emplacing task) := by
    rw [hcalls]
    rfl
  have hemplace : p.emplace 0 ≠ none := by
    rw [ThreadPool.emplace, hmutex, hj]
    simp
  obtain ⟨p', hp'⟩ := Option.ne_none_iff_exists'.mp hemplace
  have hcalls' : p'.calls = [.notifying] ∧ p'.mutex = none := by
    cases step_cases (l := .emplace 0) hp' with
    | emplace hm hj' =>
      refine ⟨?_, hm⟩
      change p.calls.set 0 .notifying = _
      rw [hcalls]
      rfl
  obtain ⟨i, hi⟩ := ThreadPool.exists_notifyOne (p := p') (j := 0) (by rw [hcalls'.1]; rfl)
  obtain ⟨q, hq⟩ := Option.ne_none_iff_exists'.mp hi
  refine ⟨[.emplace 0, .notifyOne 0 i], q, .cons rfl hp' (.cons rfl hq (.nil _)), ?_⟩
  cases ThreadPool.notifyOne_cases hq with
  | notify =>
    refine ⟨?_, hcalls'.2⟩
    change p'.calls.eraseIdx 0 = []
    rw [hcalls'.1]
    rfl
  | nobody =>
    refine ⟨?_, hcalls'.2⟩
    change p'.calls.eraseIdx 0 = []
    rw [hcalls'.1]
    rfl

/-- A thread that executes no task can come to the point where it takes one. -/
theorem exists_waited {i : Nat} {w : WorkerState τ} (hi : p.workers[i]? = some w)
    (hbusy : w.busy = 0) (howns : w.owns = false) (hret : w ≠ .returned)
    (hmutex : p.mutex = none) (htasks : p.tasks ≠ []) (hd : p.destructor = .alive) :
    ∃ ls q, (pool τ n).Run (fun _ l => l.quiet = true) p ls q ∧ q.workers[i]? = some .waited ∧
      q.tasks = p.tasks ∧ q.calls = p.calls ∧ q.stops = p.stops := by
  -- from the head of the loop, or once it is woken
  have hlock : ∀ p' : ThreadPool τ, p'.mutex = none → p'.destructor = .alive → p'.tasks ≠ [] →
      (p'.workers[i]? = some .head ∨ p'.workers[i]? = some .woken) →
      ∃ ls q, (pool τ n).Run (fun _ l => l.quiet = true) p' ls q ∧
        q.workers[i]? = some .waited ∧ q.tasks = p'.tasks ∧ q.calls = p'.calls ∧
        q.stops = p'.stops := by
    intro p' hm hd' htasks' hi'
    have hne : p'.lock i ≠ none := by
      rcases hi' with hi' | hi' <;> rw [ThreadPool.lock, hm, hi'] <;> simp
    obtain ⟨p'', hp''⟩ := Option.ne_none_iff_exists'.mp hne
    have htesting : p''.workers[i]? = some .testing ∧ p''.tasks = p'.tasks ∧
        p''.calls = p'.calls ∧ p''.stops = p'.stops := by
      cases ThreadPool.lock_cases hp'' with
      | back _ hi'' => exact ⟨getElem?_set_of_some hi'', rfl, rfl, rfl⟩
      | last _ hi'' _ _ _ hasleep => cases hd'.symm.trans hasleep
      | relock _ hi'' => exact ⟨getElem?_set_of_some hi'', rfl, rfl, rfl⟩
    have htest : p''.test i = some (p''.setWorker i .waited) := by
      rw [ThreadPool.test, htesting.1]
      dsimp only
      rw [if_pos (Or.inr (htesting.2.1 ▸ htasks'))]
    exact ⟨[.lock i, .test i], _, .cons rfl hp'' (.cons rfl htest (.nil _)),
      getElem?_set_of_some htesting.1, htesting.2⟩
  cases w with
  | head => exact hlock p hmutex hd htasks (Or.inl hi)
  | woken => exact hlock p hmutex hd htasks (Or.inr hi)
  | asleep =>
    have hwake : p.wakeUp i = some (p.setWorker i .woken) :=
      if_pos (ThreadPool.sleeps_iff.mpr hi)
    obtain ⟨ls, q, hrun, hrest⟩ := hlock (p.setWorker i .woken) hmutex hd htasks
      (Or.inr (getElem?_set_of_some hi))
    exact ⟨.wakeUp i :: ls, q, .cons rfl hwake hrun, hrest⟩
  | testing => cases howns
  | waited => cases howns
  | running task => cases hbusy
  | returned => exact absurd rfl hret

end BS

/-- What the pool does unseen, the program does. -/
theorem Staffed.quietRun {ls : List (BS.PoolLabel WriteTask)} {p q : BS.ThreadPool WriteTask}
    (hrun : (BS.pool WriteTask env.threadCount).Run (fun _ l => l.quiet = true) p ls q)
    (h : Staffed env c) (hp : c.pool = p) :
    (pooled env).Run (fun _ _ => True) c (ls.map .pool) { c with pool := q } ∧
      (ls.map PooledLabel.pool).flatMap PooledLabel.visible = [] ∧
      Staffed env { c with pool := q } ∧ ({ c with pool := q } : PooledState).abs = c.abs := by
  induction hrun generalizing c with
  | nil p =>
    subst hp
    exact ⟨.nil _, rfl, h, rfl⟩
  | @cons p p' q l ls hl hst _ ih =>
    subst hp
    obtain ⟨hstaffed, hqueue⟩ := h.quiet hl hst
    obtain ⟨hrun, hvisible, hstaffed', habs⟩ := ih hstaffed rfl
    have hstep : c.step env (.pool l) = some { c with pool := p' } := by
      change c.poolStep l = _
      cases l with
      | emplace j => exact congrArg (Option.map _) hst
      | notifyOne j i => exact congrArg (Option.map _) hst
      | lock i => exact congrArg (Option.map _) hst
      | test i => exact congrArg (Option.map _) hst
      | wakeUp i => exact congrArg (Option.map _) hst
      | _ => cases hl
    refine ⟨.cons trivial hstep hrun, ?_, hstaffed', habs.trans ?_⟩
    · rw [List.map_cons, List.flatMap_cons, hvisible]
      cases l with
      | take i => cases hl
      | _ => rfl
    · rw [PooledState.abs, PooledState.abs, hqueue]

/-- A step of the watcher, or of a hash table. -/
theorem AtEase.realize_other {l : Label} (h : AtEase env c) (hs : c.core.step env l = some t)
    (hloop : ∀ l', l ≠ .loop l') (hworker : ∀ l', l ≠ .worker l') :
    ∃ ls d, (pooled env).Run (fun _ _ => True) c ls d ∧ ls.flatMap PooledLabel.visible = [l] ∧
      d.abs = t.behind c.queue ∧ AtEase env d := by
  obtain ⟨hstep, hstaffed⟩ := h.toStaffed.other hs hloop hworker
  exact ⟨[.server l], { c with core := t }, .single trivial hstep, rfl, rfl, hstaffed, h.idle,
    h.free⟩

/-- **A step of the server** can be taken by the program. -/
theorem AtEase.realize {l : Label} (h : AtEase env c) (hs : c.abs.step env l = some s) :
    ∃ ls d, (pooled env).Run (fun _ _ => True) c ls d ∧ ls.flatMap PooledLabel.visible = [l] ∧
      d.abs = s ∧ AtEase env d := by
  by_cases hl : l = .worker .dequeue
  · subst hl
    have hs' : c.abs.dequeue env = some s := hs
    have hqueue : c.abs.pool.queue = c.pool.tasks := by
      change c.queue ++ c.core.pool.queue = _
      rw [h.queue, PooledState.queue, h.idle]
      simp
    rw [State.dequeue, hqueue] at hs'
    cases htasks : c.pool.tasks with
    | nil =>
      rw [htasks] at hs'
      cases hs'
    | cons task tasks =>
      rw [htasks] at hs'
      obtain ⟨hlt, -⟩ := Option.ite_none_right_eq_some.mp hs'
      -- there is a thread that executes no task
      have hfree : total BS.WorkerState.busy c.pool.workers < c.pool.workers.length := by
        rw [h.busy, h.sound.length, h.length_seats]
        exact hlt
      obtain ⟨i, w, hi, hbusy⟩ := exists_of_total_lt_length hfree
      have howns : w.owns = false := by
        cases hw : w.owns with
        | false => rfl
        | true =>
          have hown := h.sound.exclusive.worker i w hi hw
          rw [h.free] at hown
          cases hown
      have hret : w ≠ .returned := by
        rintro rfl
        have hstop := h.sound.stopped.returned i hi
        rw [h.sound.stopped.stops_eq_nil (by rw [h.alive]; rfl)] at hstop
        cases hstop
      have hne : c.pool.tasks ≠ [] := by
        rw [htasks]
        exact List.cons_ne_nil _ _
      obtain ⟨ls, q, hrun, hwaited, hqtasks, hqcalls, hqstops⟩ :=
        BS.exists_waited (n := env.threadCount) hi hbusy howns hret h.free hne h.alive
      obtain ⟨hrun', hvisible, hstaffed, habs⟩ := h.toStaffed.quietRun hrun rfl
      have htake : q.take i ≠ none := by
        rw [BS.ThreadPool.take, hwaited]
        dsimp only
        rw [if_neg, hqtasks, htasks]
        · simp
        · rw [hqstops, h.sound.stopped.stops_eq_nil (by rw [h.alive]; rfl)]
          exact List.not_mem_nil
      obtain ⟨p, hp⟩ := Option.ne_none_iff_exists'.mp htake
      obtain ⟨d, hd, hstaffed', hst, hdcalls, hdmutex⟩ := hstaffed.take hp
      rw [habs] at hst
      have hstep : (pooled env).step { c with pool := q } (.pool (.take i)) = some d := hd
      refine ⟨ls.map .pool ++ [.pool (.take i)], d, hrun'.snoc trivial hstep, ?_,
        Option.some.inj (hst.symm.trans hs), hstaffed', (hdcalls.trans hqcalls).trans h.idle,
        hdmutex⟩
      rw [List.flatMap_append, hvisible]
      rfl
  · rw [PooledState.abs, State.step_behind hl, Option.map_eq_some_iff] at hs
    obtain ⟨t, ht, rfl⟩ := hs
    cases l with
    | loop l =>
      obtain ⟨d, hd, hstaffed, habs, hmutex, hcalls⟩ := h.toStaffed.loop h.idle ht
      have hstep : (pooled env).Run (fun _ _ => True) c [.server (.loop l)] d :=
        .single trivial hd
      rw [h.free] at hmutex
      rcases hcalls with hcalls | ⟨task, hcalls⟩
      · exact ⟨_, d, hstep, rfl, habs, hstaffed, hcalls, hmutex⟩
      · obtain ⟨ls, q, hrun, hqcalls, hqmutex⟩ :=
          BS.exists_notified (n := env.threadCount) hcalls hmutex
        obtain ⟨hrun', hvisible, hstaffed', habs'⟩ := hstaffed.quietRun hrun rfl
        refine ⟨_, _, hstep.append hrun', ?_, habs'.trans habs, hstaffed', hqcalls, hqmutex⟩
        rw [List.flatMap_append, hvisible]
        rfl
    | worker l =>
      obtain ⟨d, hd, hstaffed, hcore, hqueue, hmutex, hcalls⟩ :=
        h.toStaffed.worker (fun heq => hl (congrArg Label.worker heq)) ht
      refine ⟨[.server (.worker l)], d, .single trivial hd, rfl, ?_, hstaffed,
        hcalls.trans h.idle, hmutex.trans h.free⟩
      rw [PooledState.abs, hcore, hqueue]
    | _ => exact h.realize_other ht (by simp) (by simp)

/-! ## The result -/

/-- **The server and its pool**: the program with the pool of `BS_thread_pool.hpp` can do what
the server can do with its queue, and nothing else that can be seen. -/
theorem pooled_iff (env : Env) (ls : List Label) (s : State) :
    (server env).Run (fun _ _ => True) (State.initial env) ls s ↔
      ∃ (ls' : List PooledLabel) (c : PooledState),
        (pooled env).Run (fun _ _ => True) (pooled env).init ls' c ∧
          ls'.flatMap PooledLabel.visible = ls ∧ c.abs = s := by
  constructor
  · intro h
    have hinit : AtEase env (pooled env).init := ⟨.initial env, rfl, rfl⟩
    have hreal : ∃ ls' c, (pooled env).Run (fun _ _ => True) (pooled env).init ls' c ∧
        ls'.flatMap PooledLabel.visible = ls ∧ c.abs = s ∧ AtEase env c :=
      h.realized (fun _ _ _ hc _ hs => hc.realize hs) rfl hinit
    obtain ⟨ls', c, hrun, hvisible, habs, -⟩ := hreal
    exact ⟨ls', c, hrun, hvisible, habs⟩
  · rintro ⟨ls', c, hrun, rfl, rfl⟩
    exact hrun.refines (I := Staffed env) (fun c l d _ hs hc => (hc.step hs).1)
      (fun c l d _ hs hc => (hc.step hs).2) (.initial env)

/-! ## The server's part of it -/

/-- The steps that the pool takes by itself. -/
def PooledLabel.own : PooledLabel → Bool
  | server _ => false
  | pool l => l.own

/-- They are steps of the pool. -/
theorem PooledState.poolStep_some {l : BS.PoolLabel WriteTask} (hl : l.own = true)
    (hs : c.poolStep l = some d) : c.pool.step l = some d.pool := by
  cases l with
  | take i =>
    obtain ⟨pool, hp, rfl⟩ := Option.map_eq_some_iff.mp hs
    refine Eq.trans hp (congrArg some ?_)
    split <;> rfl
  | emplace j =>
    obtain ⟨pool, hp, rfl⟩ := Option.map_eq_some_iff.mp hs
    exact hp
  | notifyOne j i =>
    obtain ⟨pool, hp, rfl⟩ := Option.map_eq_some_iff.mp hs
    exact hp
  | lock i =>
    obtain ⟨pool, hp, rfl⟩ := Option.map_eq_some_iff.mp hs
    exact hp
  | test i =>
    obtain ⟨pool, hp, rfl⟩ := Option.map_eq_some_iff.mp hs
    exact hp
  | _ => first | cases hs | cases hl

/-- Where the program leaves the pool alone, the pool rests. -/
theorem Staffed.rests (h : Staffed env c)
    (hrest : (pooled env).AtRest (fun _ l => l.own = true) c) :
    BS.Rests env.threadCount c.pool := by
  intro l hl
  have hnone : c.poolStep l = none := hrest (.pool l) hl
  cases l with
  | take i => exact Option.map_eq_none_iff.mp hnone
  | emplace j => exact Option.map_eq_none_iff.mp hnone
  | notifyOne j i => exact Option.map_eq_none_iff.mp hnone
  | lock i => exact Option.map_eq_none_iff.mp hnone
  | test i => exact Option.map_eq_none_iff.mp hnone
  | enter =>
    change c.pool.enter = none
    rw [BS.ThreadPool.enter, h.alive]
    split <;> trivial
  | waitTest =>
    change c.pool.waitTest = none
    rw [BS.ThreadPool.waitTest, h.alive]
    exact if_neg (by simp)
  | requestStop notifies =>
    change c.pool.requestStop notifies = none
    rw [BS.ThreadPool.requestStop, h.alive]
  | join =>
    change c.pool.join = none
    rw [BS.ThreadPool.join, h.alive]
  | _ => cases hl

/-- Where the pool rests, the program leaves it alone. -/
theorem PooledState.atRest {n : Nat} (h : BS.Rests n c.pool) :
    (pooled env).AtRest (fun _ l => l.own = true) c := by
  intro l hl
  cases l with
  | server l => cases hl
  | pool l =>
    by_contra hne
    obtain ⟨d, hs⟩ := Option.ne_none_iff_exists'.mp hne
    cases (h l hl).symm.trans (PooledState.poolStep_some hl hs)

/-- **No task waits while a worker is free**: left alone, the pool takes at most `work` steps,
and where it has taken them `submit_task` has returned, and every worker has a task, or there
is none left in the queue. -/
theorem pooled_rests {ls : List PooledLabel} (h : (pooled env).Reachable c)
    (hrun : (pooled env).Run (fun _ l => l.own = true) c ls d) :
    ls.length ≤ c.pool.work env.threadCount ∧
      ((pooled env).AtRest (fun _ l => l.own = true) d →
        d.pool.calls = [] ∧ (d.abs.pool.queue = [] ∨
          d.abs.pool.running.length + d.abs.pool.lost = env.threadCount)) := by
  have hc : Staffed env c := h.invariant (.initial env) fun _ _ _ _ hs hI => (hI.step hs).1
  have hd : Staffed env d := hrun.preserves (fun _ _ _ _ hs hI => (hI.step hs).1) hc
  refine ⟨?_, fun hrest => ?_⟩
  · have hcount := hrun.countP_le (p := fun _ => true)
      (μ := fun c => c.pool.work env.threadCount) (I := Staffed env)
      (fun _ _ _ _ hs hI => (hI.step hs).1) (fun c l d hl hs hI _ => ?_)
      (fun _ _ _ _ _ _ hp => nomatch hp) hc
    · rw [List.countP_true] at hcount
      exact Nat.le_of_add_right_le hcount
    · cases l with
      | server l => cases hl
      | pool l =>
        exact BS.work_lt (PooledState.poolStep_some hl hs) (BS.PoolLabel.settling_of_own hl)
          hI.sound.length
  · have hpool := hd.rests hrest
    have hcalls := hpool.calls hd.sound
    have hqueue : d.abs.pool.queue = d.pool.tasks := by
      change d.queue ++ d.core.pool.queue = _
      rw [hd.queue, PooledState.queue, hcalls]
      simp
    refine ⟨hcalls, ?_⟩
    rw [hqueue]
    refine (hpool.running hd.sound).imp_right fun hlen => ?_
    -- a thread that executes a task is a worker, or lost
    have hbusy : total BS.WorkerState.busy d.pool.workers = d.pool.running.length := by
      rw [BS.ThreadPool.running]
      induction d.pool.workers with
      | nil => rfl
      | cons w ws ih =>
        rw [total_cons, ih, List.filterMap_cons]
        cases w <;> simp [BS.WorkerState.busy, BS.WorkerState.task?, Nat.add_comm]
    change d.core.pool.running.length + d.core.pool.lost = _
    rw [← hd.length_seats, ← hd.busy, hbusy, hlen]

/-- An upload, whose task a thread of the pool is about to take. -/
def oneUpload : PooledState :=
  (pooled {}).final (fun _ _ => True)
    ((.loop .opened :: connectLabels 0 1 7 ++ [dataLabel 0 1 [3]]).map PooledLabel.server ++
      [.pool (.emplace 0), .pool (.lock 0), .pool (.test 0)])

/-- The thread takes it, and there is nobody to be notified. -/
def oneUploadGoesOn : List PooledLabel := [.pool (.take 0), .pool (.notifyOne 0 none)]

/-- The thread has it. -/
def oneUploadTaken : PooledState :=
  ((pooled {}).replay (fun _ l => l.own = true) oneUpload oneUploadGoesOn).getD oneUpload

theorem pooled_rests_oneUpload :
    oneUploadGoesOn.length ≤ oneUpload.pool.work 1 ∧
      oneUploadTaken.pool.calls = [] ∧ (oneUploadTaken.abs.pool.queue = [] ∨
        oneUploadTaken.abs.pool.running.length + oneUploadTaken.abs.pool.lost = 1) := by
  have hrun : (pooled {}).Run (fun _ l => l.own = true) oneUpload oneUploadGoesOn
      oneUploadTaken := System.Run.of_replay_getD (by decide +kernel)
  have hrest : BS.Rests 1 oneUploadTaken.pool := by
    have hworkers : oneUploadTaken.pool.workers = [.running ⟨0, ⟨packetData, 1, [3]⟩, some 0⟩] := by
      decide +kernel
    refine .of_workers (by decide +kernel) ?_ (Or.inl (by decide +kernel))
    rw [hworkers]
    exact fun w hw => Or.inr (Or.inl ⟨_, List.mem_singleton.mp hw⟩)
  obtain ⟨hlen, hend⟩ :=
    pooled_rests ((pooled {}).reaches_final (fun _ _ => True) _ (by decide +kernel)) hrun
  exact ⟨hlen, hend (PooledState.atRest hrest)⟩

end Woeful
