import Woeful.PoolDestructor

/-!
# The wake-ups of the pool

`detach_task` notifies one thread only, after it has released the mutex, and the thread that
it wakes need not be the one that takes the task. Still no thread sleeps while there is a task
that nobody is going to take: the invariant (`Wakeful`) compares the queue with the threads
that will look at it before they sleep again, and with the calls that have yet to notify one.
-/

namespace Woeful.BS

open Transition Threads

variable {τ : Type} {p q : ThreadPool τ} {l : PoolLabel τ} {n : Nat}

/-! ## Who has the mutex -/

/-- The holder of the mutex is where it is needed. -/
def Held (p : ThreadPool τ) : Prop :=
  match p.mutex with
  | none => True
  | some (.worker i) => ∃ w, p.workers[i]? = some w ∧ w.owns = true
  | some .destructor => p.destructor = .testing

namespace Held

theorem of_none (h : p.mutex = none) : Held p := by
  rw [Held, h]
  trivial

theorem of_worker {i : Nat} {w : WorkerState τ} (h : p.mutex = some (.worker i))
    (hi : p.workers[i]? = some w) (hw : w.owns = true) : Held p := by
  rw [Held, h]
  exact ⟨w, hi, hw⟩

/-- A thread moves that does not have the mutex, and does not get it. -/
theorem move {i : Nat} {a b : WorkerState τ} (h : Held p) (hi : p.workers[i]? = some a)
    (ha : a.owns = false) (hq : q.workers = p.workers.set i b) (hmutex : q.mutex = p.mutex)
    (hd : p.destructor = .testing → q.destructor = .testing) : Held q := by
  rw [Held, hmutex]
  rw [Held] at h
  split at h
  · trivial
  · rename_i j heq
    obtain ⟨w, hj, hw⟩ := h
    refine ⟨w, ?_, hw⟩
    have hne : j ≠ i := by
      rintro rfl
      obtain rfl := Option.some.inj (hi.symm.trans hj)
      rw [ha] at hw
      cases hw
    rw [hq, getElem?_set_of_ne hne]
    exact hj
  · exact hd h

/-- No thread moves. -/
theorem keep (h : Held p) (hq : q.workers = p.workers) (hmutex : q.mutex = p.mutex)
    (hd : p.destructor = .testing → q.destructor = .testing) : Held q := by
  rw [Held, hmutex, hq]
  rw [Held] at h
  split at h
  · trivial
  · exact h
  · exact hd h

theorem step (hs : p.step l = some q) (h : Held p) : Held q := by
  cases step_cases hs with
  | notify hj hi => exact h.move hi rfl rfl rfl id
  | back hm hi => exact of_worker rfl (getElem?_set_of_some hi) rfl
  | last hm hi => exact of_worker rfl (getElem?_set_of_some hi) rfl
  | relock hm hi => exact of_worker rfl (getElem?_set_of_some hi) rfl
  | @wait i hi =>
    rw [Held] at h ⊢
    change match p.mutex with | none => _ | some (.worker i) => _ | some .destructor => _
    split at h
    · trivial
    · rename_i j heq
      by_cases hji : j = i
      · subst hji
        exact ⟨_, getElem?_set_of_some hi, rfl⟩
      · obtain ⟨w, hj, hw⟩ := h
        exact ⟨w, (getElem?_set_of_ne hji).trans hj, hw⟩
    · exact h
  | sleep => exact of_none rfl
  | ret => exact of_none rfl
  | take => exact of_none rfl
  | finish hi => exact h.move hi rfl rfl rfl id
  | wakeUp hi => exact h.move hi rfl rfl rfl id
  | destroy hd => exact h.keep rfl rfl fun heq => by cases hd.symm.trans heq
  | enter => exact rfl
  | reenter => exact rfl
  | waited => exact of_none rfl
  | waitSleep => exact of_none rfl
  | waitWakeUp hd => exact h.keep rfl rfl fun heq => by cases hd.symm.trans heq
  | stopAll hd =>
    rw [Held] at h ⊢
    change match p.mutex with | none => _ | some (.worker i) => _ | some .destructor => _
    split at h
    · trivial
    · obtain ⟨w, hj, hw⟩ := h
      refine ⟨w, ?_, hw⟩
      rw [List.getElem?_map, hj]
      cases w with
      | testing | waited => rfl
      | _ => cases hw
    · cases hd.symm.trans h
  | stop hd => exact h.keep rfl rfl fun heq => by cases hd.symm.trans heq
  | join hd => exact h.keep rfl rfl fun heq => by cases hd.symm.trans heq
  | _ => exact h.keep rfl rfl id

end Held

/-! ## Who will look at the queue -/

/-- Whether a thread will look at the queue before it sleeps. -/
def WorkerState.awake : WorkerState τ → Nat
  | testing => 1
  | woken => 1
  | waited => 1
  | _ => 0

/-- Whether a call has yet to notify a thread. -/
def DetachState.notifies : DetachState τ → Nat
  | notifying => 1
  | emplacing _ => 0

/-- While a thread sleeps, there are as many that will look at the queue as there are tasks. -/
def Wakeful (p : ThreadPool τ) : Prop :=
  ∀ i : Nat, p.workers[i]? = some .asleep →
    p.tasks.length ≤ total WorkerState.awake p.workers + total DetachState.notifies p.calls

namespace Wakeful

/-- A thread moves, and does not fall asleep. -/
theorem move {i : Nat} {a b : WorkerState τ} (h : Wakeful p) (hi : p.workers[i]? = some a)
    (hq : q.workers = p.workers.set i b) (hb : b ≠ .asleep)
    (hle : q.tasks.length + a.awake + total DetachState.notifies p.calls ≤
      p.tasks.length + b.awake + total DetachState.notifies q.calls) : Wakeful q := by
  intro j hj
  rw [hq] at hj
  rcases getElem?_set_cases hj with ⟨-, hb'⟩ | ⟨-, hj⟩
  · exact absurd hb'.symm hb
  · have hold := h j hj
    have hset := total_set WorkerState.awake (b := b) hi
    rw [hq]
    omega

/-- There is nothing to look for. -/
theorem of_nil (h : q.tasks = []) : Wakeful q := by
  intro i _
  rw [h]
  exact Nat.zero_le _

theorem step (hs : p.step l = some q) (he : Emptied p) (hst : Stopped p) (h : Wakeful p) :
    Wakeful q := by
  cases step_cases hs with
  | detachTask =>
    intro i hi
    refine Nat.le_trans (h i hi) ?_
    exact Nat.add_le_add_left (by rw [total_append]; exact Nat.le_add_right _ _) _
  | @emplace j task hm hj =>
    intro i hi
    have hold := h i hi
    have hset := total_set DetachState.notifies (b := .notifying) hj
    change (p.tasks ++ [task]).length ≤
      total WorkerState.awake p.workers + total _ (p.calls.set j .notifying)
    simp only [DetachState.notifies] at hset
    rw [List.length_append, List.length_singleton]
    omega
  | @notify j i hj hi =>
    have herase := total_eraseIdx DetachState.notifies hj
    refine h.move hi rfl nofun ?_
    change _ ≤ _ + total _ (p.calls.eraseIdx j)
    simp only [DetachState.notifies, WorkerState.awake] at herase ⊢
    omega
  | nobody hj hnone => exact fun i hi => absurd hi (hnone i)
  | back hm hi => exact h.move hi rfl nofun (by simp [WorkerState.awake])
  | last hm hi => exact h.move hi rfl nofun (by simp [WorkerState.awake])
  | relock hm hi => exact h.move hi rfl nofun (Nat.le_refl _)
  | wait hi => exact h.move hi rfl nofun (Nat.le_refl _)
  | sleep _ _ htasks => exact of_nil htasks
  | @ret i hi hstop =>
    obtain ⟨_, _, hsome, -⟩ := (hst.mem_stops i).mp hstop
    exact of_nil (he fun hnone => by rw [hnone] at hsome; cases hsome).1
  | take hi hstop htasks =>
    refine h.move hi rfl nofun ?_
    rw [htasks, List.length_cons]
    exact Nat.le_refl _
  | finish hi => exact h.move hi rfl nofun (Nat.le_refl _)
  | wakeUp hi => exact h.move hi rfl nofun (by simp [WorkerState.awake])
  | stopAll =>
    -- nobody sleeps any more
    intro i hi
    obtain ⟨w, -, hw⟩ := Option.map_eq_some_iff.mp ((List.getElem?_map ..).symm.trans hi)
    exact absurd hw w.wake_ne_asleep
  | _ => exact h

theorem create (n : Nat) : Wakeful (ThreadPool.create n : ThreadPool τ) := of_nil rfl

end Wakeful

/-- All invariants of the pool. -/
structure Sound (n : Nat) (p : ThreadPool τ) : Prop extends Destroyed n p where
  /-- the mutex -/
  held : Held p
  /-- the threads that sleep -/
  wakeful : Wakeful p

theorem Sound.step (hs : p.step l = some q) (h : Sound n p) : Sound n q :=
  ⟨h.toDestroyed.step hs, h.held.step hs, h.wakeful.step hs h.emptied h.stopped⟩

theorem Sound.create (n : Nat) : Sound n (ThreadPool.create n : ThreadPool τ) :=
  ⟨.create n, .of_none rfl, .create n⟩

theorem Sound.of_reaches {guard : ThreadPool τ → PoolLabel τ → Prop}
    (h : (pool τ n).Reaches guard p) : Sound n p :=
  h.invariant (.create n) fun _ _ _ _ hs hI => hI.step hs

end Woeful.BS
