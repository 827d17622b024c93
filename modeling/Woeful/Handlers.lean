import Woeful.Descriptors
import Woeful.Frames

/-!
# Whole handlers

A handler of the loop thread is a run from one moment between two events to the next one:
the loop thread takes its steps and the other threads take theirs (`HandlerRun`). Of the
others it is enough to know that they touch no manager, open and close no descriptor, and
send nothing. What the watcher may do is take descriptors out of the epoll set; these are
noted along the run (`State.erases`), so that what a handler leaves there can be told apart.
-/

namespace Woeful

open Memory Transition

variable {env : Env} {s t u : State} {m : Nat} {l : Label}

/-- The descriptor an event says was closed. -/
def Event.closedFd : Event → Option Fd
  | .closed fd _ => some fd
  | _ => none

namespace State

/-- The descriptors that were closed, in order. -/
def closedFds (s : State) : List Fd := s.log.filterMap Event.closedFd

/-- The descriptor that the watcher takes out of the epoll set in a step. -/
def erases (s : State) : Label → Option Fd
  | .watch .erase => s.watcher.phase.pass?.map (·.fd)
  | _ => none

/-- The descriptors that the watcher takes out of the epoll set in a run. -/
def erased (env : Env) (s : State) (ls : List Label) : List Fd :=
  ((server env).trail erases s ls).flatMap Option.toList

end State

/-- A handler, which the loop thread starts with `l`; `ls` are the steps after the first one,
of all threads. -/
structure HandlerRun (env : Env) (s : State) (l : LoopLabel) (ls : List Label) (t : State) :
    Prop where
  /-- it starts, and goes on until the loop thread is idle again -/
  run : ∃ u, s.step env (.loop l) = some u ∧
    (server env).Run (fun u _ => u.loop ≠ .idle) u ls t
  /-- it ends -/
  idle : t.loop = .idle

/-! ## The other threads -/

/-- What is left of the epoll set `epoll` when `fds` were taken out. -/
def Remains (epoll : List Fd) (fds : List Fd) (epoll' : List Fd) : Prop :=
  ∀ fd, fd ∈ epoll' ↔ fd ∈ epoll ∧ fd ∉ fds

/-- A step of another thread, as the loop thread sees it. -/
structure Aside (s t : State) (fds : List Fd) : Prop where
  /-- the loop thread stands where it stood -/
  loop : t.loop = s.loop
  /-- no manager is touched -/
  managers : t.managers = s.managers
  /-- the same managers are watched -/
  watched : t.watcher.watchedSockets = s.watcher.watchedSockets
  /-- no descriptor is opened or closed -/
  files : t.kernel.files = s.kernel.files
  /-- no socket is made -/
  socks : t.kernel.socks = s.kernel.socks
  /-- of the epoll set remains what the watcher leaves -/
  epoll : Remains s.kernel.epoll fds t.kernel.epoll
  /-- nothing is sent -/
  sentTo : t.sentTo = s.sentTo
  /-- nothing is closed -/
  closedFds : t.closedFds = s.closedFds

theorem Remains.refl (epoll : List Fd) : Remains epoll [] epoll := fun fd => by simp

theorem Remains.trans {epoll epoll' epoll'' fds fds' : List Fd} (h : Remains epoll fds epoll')
    (h' : Remains epoll' fds' epoll'') : Remains epoll (fds ++ fds') epoll'' := by
  intro fd
  rw [h' fd, h fd, List.mem_append, not_or, and_assoc]

/-- A step that changes neither kernel nor managers and logs nothing of interest. -/
theorem Aside.of_log {es : List Event} (hloop : t.loop = s.loop)
    (hmanagers : t.managers = s.managers)
    (hwatched : t.watcher.watchedSockets = s.watcher.watchedSockets)
    (hkernel : t.kernel = s.kernel) (hlog : t.log = s.log ++ es)
    (hes : ∀ e ∈ es, (∀ m, e.frameTo m = none) ∧ e.closedFd = none) : Aside s t [] where
  loop := hloop
  managers := hmanagers
  watched := hwatched
  files := by rw [hkernel]
  socks := by rw [hkernel]
  epoll := by
    rw [hkernel]
    exact .refl _
  sentTo := by
    funext m
    rw [State.sentTo, State.sentTo, hlog, List.filterMap_append,
      List.filterMap_eq_nil_iff.mpr fun e he => (hes e he).1 m, List.append_nil]
  closedFds := by
    rw [State.closedFds, State.closedFds, hlog, List.filterMap_append,
      List.filterMap_eq_nil_iff.mpr fun e he => (hes e he).2, List.append_nil]

/-- A step that is quite invisible. -/
theorem Aside.of_eq (hloop : t.loop = s.loop) (hmanagers : t.managers = s.managers)
    (hwatched : t.watcher.watchedSockets = s.watcher.watchedSockets)
    (hkernel : t.kernel = s.kernel) (hlog : t.log = s.log) : Aside s t [] :=
  .of_log hloop hmanagers hwatched hkernel (hlog.trans (List.append_nil _).symm)
    fun _ he => absurd he List.not_mem_nil

/-- A step that is seen in the log only, as something the loop thread does not look at. -/
theorem Aside.of_record {e : Event} (hloop : t.loop = s.loop)
    (hmanagers : t.managers = s.managers)
    (hwatched : t.watcher.watchedSockets = s.watcher.watchedSockets)
    (hkernel : t.kernel = s.kernel) (hlog : t.log = s.log ++ [e])
    (he : (∀ m, e.frameTo m = none) ∧ e.closedFd = none) : Aside s t [] :=
  .of_log hloop hmanagers hwatched hkernel hlog fun _ he' => List.mem_singleton.mp he' ▸ he

theorem watchStep_aside {w : WatchLabel} (hs : s.watchStep env w = some t) :
    Aside s t (s.erases (.watch w)).toList := by
  cases w with
  | erase =>
    rw [State.watchStep, State.watchErase] at hs
    split at hs
    · rename_i p hp
      obtain rfl := Option.some.inj hs
      rw [State.erases, hp]
      refine ⟨rfl, rfl, rfl, rfl, rfl, fun fd => ?_, rfl, rfl⟩
      exact Kernel.mem_epoll_eraseFd.trans (and_congr_right' List.mem_singleton.not.symm)
    · cases hs
  | read result =>
    rw [State.watchStep, State.watchRead] at hs
    split at hs
    · rw [Option.ite_none_right_eq_some] at hs
      obtain rfl := Option.some.inj hs.2
      exact .of_record rfl rfl rfl rfl rfl ⟨fun _ => rfl, rfl⟩
    · cases hs
  | wait events =>
    rw [State.watchStep, State.watchWait, Option.ite_none_right_eq_some] at hs
    obtain rfl := Option.some.inj hs.2
    exact .of_eq rfl rfl rfl rfl rfl
  | next =>
    rw [State.watchStep, State.watchNext] at hs
    split at hs
    · obtain rfl := Option.some.inj hs
      exact .of_eq rfl rfl rfl rfl rfl
    · split at hs <;> obtain rfl := Option.some.inj hs <;> exact .of_eq rfl rfl rfl rfl rfl
    · cases hs
  | count =>
    rw [State.watchStep, State.watchCount] at hs
    split at hs
    · obtain rfl := Option.some.inj hs
      exact .of_eq rfl rfl rfl rfl rfl
    · cases hs
  | defer =>
    rw [State.watchStep, State.watchDefer] at hs
    split at hs
    · obtain rfl := Option.some.inj hs
      exact .of_eq rfl rfl rfl rfl rfl
    · cases hs

theorem WorkerMove.aside {w : WorkerLabel} (hs : WorkerMove env s w t) : Aside s t [] := by
  cases hs with
  | begin hi hd => exact .of_record rfl rfl rfl rfl rfl ⟨fun _ => rfl, rfl⟩
  | fault hi hd => exact .of_record rfl rfl rfl rfl rfl ⟨fun _ => rfl, rfl⟩
  | write hi hn => exact .of_record rfl rfl rfl rfl rfl ⟨fun _ => rfl, rfl⟩
  | _ => exact .of_eq rfl rfl rfl rfl rfl

/-- **A step inside a handler** is the loop thread's, or one it does not notice. -/
theorem step_busy (hs : s.step env l = some t) (hbusy : s.loop ≠ .idle) :
    (∃ l', l = .loop l' ∧ LoopMove env s l' t ∧ s.erases l = none) ∨
      (∀ l', l ≠ .loop l') ∧ Aside s t (s.erases l).toList := by
  cases l with
  | loop l' => exact Or.inl ⟨l', rfl, loopStep_cases hs, rfl⟩
  | watch w => exact Or.inr ⟨fun _ => Label.noConfusion, watchStep_aside hs⟩
  | worker w => exact Or.inr ⟨fun _ => Label.noConfusion, (workerStep_cases hs).aside⟩
  | rehash m streams =>
    change s.rehash m streams = some t at hs
    rw [State.rehash] at hs
    split at hs
    · cases hs
    · exact absurd (Option.ite_none_right_eq_some.mp hs).1.1 hbusy
  | rehashSockets ms => exact absurd (State.rehashSockets_frame hs).1 hbusy

/-! ## The rule -/

/-- The condition `P` is met by every step of a run. -/
def AllAlong (env : Env) (P : State → Label → Prop) (s : State) (ls : List Label) : Prop :=
  ∀ p ∈ (server env).trail P s ls, p

/-- **The rule for handlers**: what the first step brings about, and what the further steps of
the loop thread and those of the others keep, holds when the handler is done. It may depend
on what the watcher took out of the epoll set so far and on whether `P` was met so far. -/
theorem HandlerRun.invariant {P : State → Label → Prop} {I : List Fd → Prop → State → Prop}
    {l : LoopLabel} {ls : List Label} (h : HandlerRun env s l ls t)
    (hfirst : ∀ u, LoopMove env s l u → I [] (P s (.loop l)) u)
    (hloop : ∀ fds ok u l' v, I fds ok u → u.loop ≠ .idle → LoopMove env u l' v →
      I fds (ok ∧ P u (.loop l')) v)
    (hothers : ∀ fds ok u l' v, I fds ok u → u.loop ≠ .idle → (∀ l'', l' ≠ .loop l'') →
      Aside u v (u.erases l').toList → I (fds ++ (u.erases l').toList) (ok ∧ P u l') v) :
    I (s.erased env (.loop l :: ls)) (AllAlong env P s (.loop l :: ls)) t := by
  obtain ⟨u, hu, hrun⟩ := h.run
  let f : State → Label → Option Fd × Prop := fun s l => (s.erases l, P s l)
  let J : List (Option Fd × Prop) → State → Prop := fun notes v =>
    I (notes.flatMap fun n => n.1.toList) (∀ n ∈ notes, n.2) v
  have hsnoc : ∀ (notes : List (Option Fd × Prop)) (n : Option Fd × Prop) (v : State),
      I (notes.flatMap (fun n => n.1.toList) ++ n.1.toList) ((∀ n ∈ notes, n.2) ∧ n.2) v →
        J (notes ++ [n]) v := by
    intro notes n v hI
    change I ((notes ++ [n]).flatMap _) (∀ n' ∈ notes ++ [n], n'.2) v
    rwa [List.flatMap_append, List.flatMap_singleton, List.forall_mem_append,
      List.forall_mem_singleton]
  have hfinal : J ((server env).trail f s (.loop l :: ls)) t := by
    rw [System.trail, show (server env).step s (.loop l) = some u from hu]
    refine @System.Run.preserves_trail _ _ _ _ _ f J ?_ _ _ _ hrun [f s (.loop l)] ?_
    · intro gs u' l' v hbusy hst hI
      refine hsnoc gs (f u' l') v ?_
      rcases step_busy hst hbusy with ⟨l'', rfl, hmove, herases⟩ | ⟨hl', haside⟩
      · have hnext := hloop _ _ u' l'' v hI hbusy hmove
        change I (_ ++ (u'.erases (.loop l'')).toList) _ v
        rwa [herases, Option.toList_none, List.append_nil]
      · exact hothers _ _ u' l' v hI hbusy hl' haside
    · refine hsnoc [] (f s (.loop l)) u ?_
      have hnext := hfirst u (loopStep_cases hu)
      rwa [show (∀ n ∈ ([] : List (Option Fd × Prop)), n.2) = True from
        eq_true fun _ hn => absurd hn List.not_mem_nil, true_and]
  have herases : (server env).trail State.erases s (.loop l :: ls) =
      ((server env).trail f s (.loop l :: ls)).map (·.1) := by rw [System.trail_map]
  have hmet : (server env).trail P s (.loop l :: ls) =
      ((server env).trail f s (.loop l :: ls)).map (·.2) := by rw [System.trail_map]
  rw [State.erased, AllAlong, herases, hmet, List.flatMap_map, List.forall_mem_map]
  exact hfinal

/-! ## Replaying a handler -/

/-- Where a handler ends. -/
def handlerEnd (env : Env) (s : State) (l : LoopLabel) (ls : List Label) : State :=
  ((server env).replay (fun u _ => u.loop ≠ .idle) ((s.step env (.loop l)).getD s) ls).getD s

theorem HandlerRun.of_replay {l : LoopLabel} {ls : List Label}
    (hfirst : (s.step env (.loop l)).isSome = true)
    (hreplay : ((server env).replay (fun u _ => u.loop ≠ .idle)
      ((s.step env (.loop l)).getD s) ls).isSome = true)
    (hidle : (handlerEnd env s l ls).loop = .idle) :
    HandlerRun env s l ls (handlerEnd env s l ls) := by
  obtain ⟨u, hu⟩ := Option.isSome_iff_exists.mp hfirst
  obtain ⟨t, ht⟩ := Option.isSome_iff_exists.mp hreplay
  refine ⟨⟨u, hu, ?_⟩, hidle⟩
  rw [handlerEnd, ht]
  rw [hu] at ht
  exact System.Run.of_replay ht

end Woeful
