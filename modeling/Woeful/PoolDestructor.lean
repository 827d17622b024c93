import Woeful.PoolOrder

/-!
# The destructor of the pool

`~thread_pool` waits until there is nothing to do and then, as `threads` is destroyed, asks
the threads to stop and joins them, from the last to the first. When it is done, every task
that was ever put into the queue has returned, once, and every thread has (`destructor_done`).

What it rests on is that after the wait nothing can come up again: `detach_task` is not called
any more, and a thread that has nothing to do stays so (`Emptied`).
-/

namespace Woeful.BS

open Transition Threads

variable {τ : Type} {p q : ThreadPool τ} {l : PoolLabel τ} {n : Nat}

namespace DestructorState

/-- Whether the destructor is in `tasks_done_cv.wait`. -/
def waits : DestructorState → Bool
  | testing => true
  | asleep => true
  | woken => true
  | _ => false

/-- After the wait, how many threads are left to be asked to stop, and to be joined. -/
def left : DestructorState → Option (Nat × Nat)
  | destroying n => some (n, n)
  | joining i => some (i, i + 1)
  | _ => none

end DestructorState

/-! ## The wait -/

/-- The destructor waits, and will be told. -/
structure Waiting (p : ThreadPool τ) : Prop where
  /-- nobody calls `detach_task` any more -/
  calls : p.destructor ≠ .alive → p.calls = []
  /-- the threads know that it waits -/
  waiting : p.destructor.waits = true → p.waiting = true
  /-- there is something to wait for -/
  undone : p.destructor = .asleep → p.tasksRunning = 0 → p.tasks ≠ []

namespace Waiting

theorem step (hs : p.step l = some q) (h : Waiting p) : Waiting q := by
  cases step_cases hs with
  | detachTask hd => exact ⟨fun hne => absurd hd hne, h.waiting, h.undone⟩
  | @emplace j task hm hj =>
    refine ⟨fun hne => ?_, h.waiting, fun _ _ => ?_⟩
    · rw [h.calls hne] at hj
      cases hj
    · exact List.append_ne_nil_of_right_ne_nil _ (List.cons_ne_nil _ _)
  | notify hj hi =>
    refine ⟨fun hne => ?_, h.waiting, h.undone⟩
    rw [h.calls hne] at hj
    cases hj
  | nobody hj =>
    refine ⟨fun hne => ?_, h.waiting, h.undone⟩
    rw [h.calls hne] at hj
    cases hj
  | back hm hi hback =>
    refine ⟨h.calls, h.waiting, fun hd hrunning htasks => ?_⟩
    have hd' : p.destructor = .asleep := hd
    exact hback (h.waiting (hd' ▸ rfl)) hrunning htasks hd'
  | last hm hi hw _ _ hd =>
    refine ⟨fun _ => h.calls ?_, fun _ => hw, nofun⟩
    rw [hd]
    exact fun heq => by cases heq
  | take => exact ⟨h.calls, h.waiting, fun _ hrunning => absurd hrunning (Nat.succ_ne_zero _)⟩
  | destroy hd hcalls => exact ⟨fun _ => hcalls, nofun, nofun⟩
  | enter hm hd =>
    refine ⟨fun _ => h.calls ?_, fun _ => rfl, nofun⟩
    exact fun heq => by cases hd.symm.trans heq
  | reenter hm hd =>
    refine ⟨fun _ => h.calls ?_, fun _ => h.waiting (hd ▸ rfl), nofun⟩
    exact fun heq => by cases hd.symm.trans heq
  | waited hd =>
    refine ⟨fun _ => h.calls ?_, nofun, nofun⟩
    exact fun heq => by cases hd.symm.trans heq
  | waitSleep hd hundone =>
    refine ⟨fun _ => h.calls ?_, fun _ => h.waiting (hd ▸ rfl), fun _ => hundone⟩
    exact fun heq => by cases hd.symm.trans heq
  | waitWakeUp hd =>
    refine ⟨fun _ => h.calls ?_, fun _ => h.waiting (hd ▸ rfl), nofun⟩
    exact fun heq => by cases hd.symm.trans heq
  | stopAll hd =>
    refine ⟨fun _ => h.calls ?_, nofun, nofun⟩
    exact fun heq => by cases hd.symm.trans heq
  | stop hd =>
    refine ⟨fun _ => h.calls ?_, nofun, nofun⟩
    exact fun heq => by cases hd.symm.trans heq
  | join hd =>
    refine ⟨fun _ => h.calls ?_, nofun, nofun⟩
    exact fun heq => by cases hd.symm.trans heq
  | _ => exact ⟨h.calls, h.waiting, h.undone⟩

theorem create (n : Nat) : Waiting (ThreadPool.create n : ThreadPool τ) where
  calls h := absurd rfl h
  waiting h := by cases h
  undone h := by cases h

end Waiting

/-! ## After the wait -/

/-- After the wait there is nothing to do. -/
def Emptied (p : ThreadPool τ) : Prop :=
  p.destructor.left ≠ none → p.tasks = [] ∧ p.tasksRunning = 0 ∧ p.calls = []

namespace Emptied

theorem step (hs : p.step l = some q) (hc : Counted p) (hw : Waiting p) (h : Emptied p) :
    Emptied q := by
  have hfree : p.destructor.left ≠ none → ∀ {i : Nat} {w : WorkerState τ},
      p.workers[i]? = some w → w.counted = 1 → False := by
    intro hleft i w hi hcount
    have hpos := hc.pos hi hcount
    rw [(h hleft).2.1] at hpos
    cases hpos
  intro hleft
  cases step_cases hs with
  | detachTask hd =>
    have hleft' : p.destructor.left ≠ none := hleft
    rw [hd] at hleft'
    exact absurd rfl hleft'
  | emplace hm hj =>
    rw [(h hleft).2.2] at hj
    cases hj
  | notify hj =>
    rw [(h hleft).2.2] at hj
    cases hj
  | nobody hj =>
    rw [(h hleft).2.2] at hj
    cases hj
  | back hm hi => exact (hfree hleft hi rfl).elim
  | last => exact absurd rfl hleft
  | take hi hstop => exact absurd (h hleft).1 (hc.waited_tasks _ hi hstop)
  | finish hi => exact (hfree hleft hi rfl).elim
  | destroy => exact absurd rfl hleft
  | enter => exact absurd rfl hleft
  | reenter => exact absurd rfl hleft
  | waited hd hrunning htasks =>
    exact ⟨htasks, hrunning, hw.calls fun heq => by cases hd.symm.trans heq⟩
  | waitSleep => exact absurd rfl hleft
  | waitWakeUp => exact absurd rfl hleft
  | stopAll hd => exact h fun hnone => by rw [hd] at hnone; cases hnone
  | stop hd => exact h fun hnone => by rw [hd] at hnone; cases hnone
  | join hd => exact h fun hnone => by rw [hd] at hnone; cases hnone
  | _ => exact h hleft

theorem create (n : Nat) : Emptied (ThreadPool.create n : ThreadPool τ) :=
  fun h => absurd rfl h

end Emptied

/-! ## The threads are stopped -/

/-- Threads stop when they are asked to, and are joined when they have. -/
structure Stopped (p : ThreadPool τ) : Prop where
  /-- the threads that were asked to stop -/
  mem_stops : ∀ i, i ∈ p.stops ↔
    ∃ asked joined, p.destructor.left = some (asked, joined) ∧ asked ≤ i ∧ i < p.workers.length
  /-- a thread that was asked to stop does not wait -/
  not_asleep : ∀ i ∈ p.stops, p.workers[i]? ≠ some .asleep
  /-- only they return -/
  returned : ∀ i : Nat, p.workers[i]? = some .returned → i ∈ p.stops
  /-- the threads that were joined have returned -/
  joined : ∀ asked joined, p.destructor.left = some (asked, joined) →
    joined ≤ p.workers.length ∧
      ∀ (i : Nat) (w : WorkerState τ), joined ≤ i → p.workers[i]? = some w → w = .returned

namespace Stopped

/-- Before the wait is over nobody was asked to stop. -/
theorem stops_eq_nil (h : Stopped p) (hleft : p.destructor.left = none) : p.stops = [] := by
  refine List.eq_nil_iff_forall_not_mem.mpr fun i hi => ?_
  obtain ⟨_, _, hsome, _⟩ := (h.mem_stops i).mp hi
  rw [hleft] at hsome
  cases hsome

/-- A thread moves that has not returned. -/
theorem move {i : Nat} {a b : WorkerState τ} (h : Stopped p) (hi : p.workers[i]? = some a)
    (ha : a ≠ .returned) (hq : q.workers = p.workers.set i b) (hasleep : b = .asleep → i ∉ p.stops)
    (hret : b = .returned → i ∈ p.stops) (hstops : q.stops = p.stops)
    (hleft : q.destructor.left = p.destructor.left) : Stopped q where
  mem_stops j := by rw [hstops, hleft, hq, List.length_set, h.mem_stops]
  not_asleep j hj := by
    rw [hstops] at hj
    rw [hq]
    intro hsome
    rcases getElem?_set_cases hsome with ⟨rfl, hb⟩ | ⟨-, hsome⟩
    · exact hasleep hb.symm hj
    · exact h.not_asleep j hj hsome
  returned j hj := by
    rw [hq] at hj
    rw [hstops]
    rcases getElem?_set_cases hj with ⟨rfl, hb⟩ | ⟨-, hj⟩
    · exact hret hb.symm
    · exact h.returned j hj
  joined asked joined hsome := by
    rw [hleft] at hsome
    obtain ⟨hle, hall⟩ := h.joined asked joined hsome
    rw [hq, List.length_set]
    refine ⟨hle, fun j w hj hw => ?_⟩
    rcases getElem?_set_cases hw with ⟨rfl, -⟩ | ⟨-, hw⟩
    · exact absurd (hall _ a hj hi) ha
    · exact hall j w hj hw

/-- No thread moves. -/
theorem keep (h : Stopped p) (hq : q.workers = p.workers) (hstops : q.stops = p.stops)
    (hleft : q.destructor.left = p.destructor.left) : Stopped q where
  mem_stops j := by rw [hstops, hleft, hq, h.mem_stops]
  not_asleep j hj := hq ▸ h.not_asleep j (hstops ▸ hj)
  returned j hj := hstops ▸ h.returned j (hq ▸ hj)
  joined asked joined hsome := hq ▸ h.joined asked joined (hleft ▸ hsome)

/-- All that wait are notified. -/
theorem wakeAll (h : Stopped p) (hq : q.workers = p.workers.map WorkerState.wake)
    (hstops : q.stops = p.stops) (hleft : q.destructor.left = p.destructor.left) : Stopped q where
  mem_stops j := by rw [hstops, hleft, hq, List.length_map, h.mem_stops]
  not_asleep j hj hsome := by
    rw [hq] at hsome
    exact h.not_asleep j (hstops ▸ hj) (getElem?_wake hsome nofun)
  returned j hj := by
    rw [hq] at hj
    exact hstops ▸ h.returned j (getElem?_wake hj nofun)
  joined asked joined hsome := by
    rw [hleft] at hsome
    obtain ⟨hle, hall⟩ := h.joined asked joined hsome
    rw [hq, List.length_map]
    refine ⟨hle, fun i w hi hw => ?_⟩
    rw [List.getElem?_map, Option.map_eq_some_iff] at hw
    obtain ⟨w', hw', rfl⟩ := hw
    rw [hall i w' hi hw']
    rfl

/-- A thread is asked to stop that does not wait. -/
theorem ask {i : Nat} (h : Stopped p) (hd : p.destructor = .destroying (i + 1))
    (hi : p.workers[i]? ≠ some .asleep) (hq : q.workers = p.workers)
    (hstops : q.stops = i :: p.stops) (hq' : q.destructor = .joining i) : Stopped q := by
  obtain ⟨hlt, hall⟩ := h.joined (i + 1) (i + 1) (hd ▸ rfl)
  refine ⟨fun j => ?_, fun j hj => ?_, fun j hj => ?_, fun asked joined hsome => ?_⟩
  · rw [hstops, hq', hq, List.mem_cons, h.mem_stops, hd]
    constructor
    · rintro (rfl | ⟨asked, joined, hsome, hle, hj⟩)
      · exact ⟨_, _, rfl, Nat.le_refl _, hlt⟩
      · cases hsome
        exact ⟨_, _, rfl, Nat.le_of_succ_le hle, hj⟩
    · rintro ⟨asked, joined, hsome, hle, hj⟩
      cases hsome
      rcases Nat.eq_or_lt_of_le hle with rfl | hlt
      · exact Or.inl rfl
      · exact Or.inr ⟨_, _, rfl, hlt, hj⟩
  · rw [hstops, List.mem_cons] at hj
    rw [hq]
    rcases hj with rfl | hj
    · exact hi
    · exact h.not_asleep j hj
  · rw [hstops]
    exact List.mem_cons_of_mem _ (h.returned j (hq ▸ hj))
  · rw [hq'] at hsome
    cases hsome
    exact hq ▸ ⟨hlt, hall⟩

theorem step (hs : p.step l = some q) (h : Stopped p) : Stopped q := by
  cases step_cases hs with
  | notify hj hi => exact h.move hi nofun rfl nofun nofun rfl rfl
  | back hm hi => exact h.move hi nofun rfl nofun nofun rfl rfl
  | last hm hi _ _ _ hd => exact h.move hi nofun rfl nofun nofun rfl (by rw [hd]; rfl)
  | relock hm hi => exact h.move hi nofun rfl nofun nofun rfl rfl
  | wait hi => exact h.move hi nofun rfl nofun nofun rfl rfl
  | sleep hi hstop => exact h.move hi nofun rfl (fun _ => hstop) nofun rfl rfl
  | ret hi hstop => exact h.move hi nofun rfl nofun (fun _ => hstop) rfl rfl
  | take hi => exact h.move hi nofun rfl nofun nofun rfl rfl
  | finish hi => exact h.move hi nofun rfl nofun nofun rfl rfl
  | wakeUp hi => exact h.move hi nofun rfl nofun nofun rfl rfl
  | destroy hd => exact h.keep rfl rfl (by rw [hd]; rfl)
  | enter hm hd => exact h.keep rfl rfl (by rw [hd]; rfl)
  | reenter hm hd => exact h.keep rfl rfl (by rw [hd]; rfl)
  | waited hd =>
    have hnil := h.stops_eq_nil (by rw [hd]; rfl)
    refine ⟨fun i => ?_, h.not_asleep, h.returned, fun asked joined hsome => ?_⟩
    · change i ∈ p.stops ↔ _
      rw [hnil]
      refine ⟨nofun, ?_⟩
      rintro ⟨asked, joined, hsome, hle, hlt⟩
      cases hsome
      exact absurd hlt (Nat.not_lt.mpr hle)
    · cases hsome
      refine ⟨Nat.le_refl _, fun i w hle hi => ?_⟩
      exact absurd (List.getElem?_eq_some_iff.mp hi).1 (Nat.not_lt.mpr hle)
  | waitSleep hd => exact h.keep rfl rfl (by rw [hd]; rfl)
  | waitWakeUp hd => exact h.keep rfl rfl (by rw [hd]; rfl)
  | @stopAll i hd =>
    -- as if they were notified before the thread is asked
    have hwake : Stopped { p with workers := p.workers.map WorkerState.wake } :=
      h.wakeAll rfl rfl rfl
    refine hwake.ask hd (fun hi => ?_) rfl rfl rfl
    obtain ⟨w, -, hw⟩ := Option.map_eq_some_iff.mp ((List.getElem?_map ..).symm.trans hi)
    exact w.wake_ne_asleep hw
  | stop hd hi => exact h.ask hd hi rfl rfl rfl
  | @join i hd hi =>
    obtain ⟨hlt, hall⟩ := h.joined i (i + 1) (by rw [hd]; rfl)
    refine ⟨fun j => ?_, h.not_asleep, h.returned, fun asked joined hsome => ?_⟩
    · change j ∈ p.stops ↔ _
      rw [h.mem_stops, hd]
      constructor <;> rintro ⟨asked, joined, hsome, hle⟩ <;> cases hsome <;>
        exact ⟨_, _, rfl, hle⟩
    · cases hsome
      refine ⟨Nat.le_of_succ_le hlt, fun j w hle hj => ?_⟩
      rcases Nat.eq_or_lt_of_le hle with rfl | hlt
      · exact Option.some.inj (hj.symm.trans hi)
      · exact hall j w hlt hj
  | _ => exact h.keep rfl rfl rfl

theorem create (n : Nat) : Stopped (ThreadPool.create n : ThreadPool τ) where
  mem_stops i := by
    refine ⟨nofun, ?_⟩
    rintro ⟨asked, joined, hsome, -⟩
    cases hsome
  not_asleep i hi := by cases hi
  returned i hi := by
    have hw := List.eq_of_mem_replicate (List.mem_of_getElem? hi)
    cases hw
  joined asked joined hsome := by cases hsome

end Stopped

/-! ## The result -/

/-- The invariants of the pool and its destructor. -/
structure Destroyed (n : Nat) (p : ThreadPool τ) : Prop extends Ordered n p where
  /-- the wait -/
  waiting : Waiting p
  /-- after the wait -/
  emptied : Emptied p
  /-- the threads -/
  stopped : Stopped p

theorem Destroyed.step (hs : p.step l = some q) (h : Destroyed n p) : Destroyed n q :=
  ⟨h.toOrdered.step hs, h.waiting.step hs, h.emptied.step hs h.counted h.waiting,
    h.stopped.step hs⟩

theorem Destroyed.create (n : Nat) : Destroyed n (ThreadPool.create n : ThreadPool τ) :=
  ⟨.create n, .create n, .create n, .create n⟩

theorem Destroyed.of_reaches {guard : ThreadPool τ → PoolLabel τ → Prop}
    (h : (pool τ n).Reaches guard p) : Destroyed n p :=
  h.invariant (.create n) fun _ _ _ _ hs hI => hI.step hs

/-- Nothing is being executed once the wait is over. -/
theorem Destroyed.running_eq_nil (h : Destroyed n p) (hleft : p.destructor.left ≠ none) :
    p.running = [] := by
  refine List.filterMap_eq_nil_iff.mpr fun w hw => ?_
  obtain ⟨i, hi⟩ := List.mem_iff_getElem?.mp hw
  cases w with
  | running task =>
    have hpos := h.counted.pos hi rfl
    rw [(h.emptied hleft).2.1] at hpos
    cases hpos
  | _ => rfl

/-- **The destructor leaves nothing behind**: from the end of its wait on every task that was
put into the queue has returned, once, and nothing can be put there any more; when it is done,
the threads have returned as well. -/
theorem destructor_done (h : (pool τ n).Reachable p) (hleft : p.destructor.left ≠ none) :
    p.finished.Perm p.submitted ∧ p.tasks = [] ∧ p.calls = [] ∧ p.running = [] ∧
      (p.destructor = .destroying 0 → ∀ w ∈ p.workers, w = .returned) := by
  have hI := Destroyed.of_reaches h
  obtain ⟨htasks, -, hcalls⟩ := hI.emptied hleft
  have hrunning := hI.running_eq_nil hleft
  refine ⟨?_, htasks, hcalls, hrunning, fun hd w hw => ?_⟩
  · have honce := hI.queued.once
    have hfifo := hI.queued.fifo
    rw [hrunning, List.append_nil] at honce
    rw [htasks, List.append_nil] at hfifo
    exact hfifo ▸ honce.symm
  · obtain ⟨i, hi⟩ := List.mem_iff_getElem?.mp hw
    exact (hI.stopped.joined 0 0 (by rw [hd]; rfl)).2 i w (Nat.zero_le i) hi

/-- The destructor is called while a task is executed. -/
def destroyWhileBusy : ThreadPool Nat :=
  (pool Nat 1).final (fun _ _ => True) [.detachTask 7, .emplace 0, .notifyOne 0 none, .lock 0,
    .test 0, .take 0, .destroy, .enter, .waitTest, .finish 0, .lock 0, .test 0, .enter, .waitTest,
    .requestStop true, .lock 0, .test 0, .take 0, .join]

theorem destructor_done_destroyWhileBusy :
    destroyWhileBusy.finished.Perm destroyWhileBusy.submitted ∧ destroyWhileBusy.tasks = [] ∧
      destroyWhileBusy.calls = [] ∧ destroyWhileBusy.running = [] ∧
      (destroyWhileBusy.destructor = .destroying 0 →
        ∀ w ∈ destroyWhileBusy.workers, w = .returned) :=
  destructor_done (System.reaches_final _ _ _ (by decide +kernel)) (by decide +kernel)

example : destroyWhileBusy.destructor = .destroying 0 := by decide +kernel

end Woeful.BS
