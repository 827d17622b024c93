import Mathlib.Tactic.Tauto
import Woeful.Handlers

/-!
# The end of a websocket

The close handler lists the ids of the manager's streams, closes one after the other, and
gives up `stream_lock` in between; then it deletes the manager. `ClosedSome` says how far it
is: the streams that are done are gone, with a CLOSE each, their descriptors are closed and
out of the epoll set, and everything else is as it was when the handler started.

Nothing refers to the manager afterwards (`Quit`), and a deferred closure that runs later
finds only managers that are watched (`closure_touches_watched`).
-/

namespace Woeful

open Memory Transition

variable {env : Env} {s t u : State} {m : Nat} {fds : List Fd} {done : List UInt32}

/-- The descriptors of some of the streams of `m`. -/
def State.fdsOf (s : State) (m : Nat) (ids : List UInt32) : List Fd :=
  ids.map fun id => (s.binding m id).getD 0

/-! ## What is left of a websocket -/

/-- The managers that the loop thread is about to look into for a deferred closure. -/
def State.touched (s : State) : List Nat :=
  match s.loop with
  | .idle => (s.deferred.take 1).flatMap fun p => (s.holders p.fd).map (·.1)
  | .closeFound _ m _ => [m]
  | .sweep ms => ms
  | _ => []

/-- The websocket of `m` is gone for good. -/
structure Quit (m : Nat) (s t : State) : Prop where
  /-- its manager is deleted -/
  deleted : m ∉ t.managers
  /-- it is not watched -/
  unwatched : m ∉ t.watcher.watchedSockets
  /-- it is sent nothing any more -/
  silent : t.sentTo m = s.sentTo m
  /-- closures look into managers that are watched, so not into this one -/
  touched : ∀ m' ∈ t.touched, m' ∈ t.watcher.watchedSockets

/-- Whatever happens from now on. -/
def QuitForGood (env : Env) (m : Nat) (s : State) : Prop :=
  ∀ ls t, (server env).Run (fun _ _ => True) s ls t → Quit m s t

/-- The websocket of `m` was torn down, completely and without anything else. -/
structure TornDown (m : Nat) (s t : State) (fds : List Fd) : Prop where
  /-- its manager is deleted -/
  deleted : m ∉ t.managers
  /-- it is not watched -/
  unwatched : t.watcher.watchedSockets = s.watcher.watchedSockets.filter (· ≠ m)
  /-- its streams were closed, each once -/
  closed : ∃ ids : List UInt32, ids.Nodup ∧ (∀ id, id ∈ ids ↔ s.stream m id ≠ none) ∧
    (s.fdsOf m ids).Nodup ∧ t.sentTo m = s.sentTo m ++ ids.map (closeFrame 0x02) ∧
    t.closedFds = s.closedFds ++ s.fdsOf m ids
  /-- their descriptors are free -/
  freed : ∀ id fd, s.binding m id = some fd → t.kernel.files fd = none
  /-- and all others are as they were -/
  kept : ∀ fd, (∀ id, s.binding m id ≠ some fd) → t.kernel.files fd = s.kernel.files fd
  /-- the epoll set is rid of them, and has all others, but for what the watcher took out -/
  epoll : ∀ fd, fd ∈ t.kernel.epoll ↔
    fd ∈ s.kernel.epoll ∧ (∀ id, s.binding m id ≠ some fd) ∧ fd ∉ fds
  /-- every other manager is as it was -/
  others : ∀ m' ≠ m, t.managers.lookup m' = s.managers.lookup m'
  /-- none of its descriptors was one of these -/
  otherFds : ∀ m' ≠ m, ∀ id' fd, s.binding m' id' = some fd → ∀ id, s.binding m id ≠ some fd
  /-- and it was sent nothing -/
  silent : ∀ m' ≠ m, t.sentTo m' = s.sentTo m'

/-- When the destructor is next, there is no stream left. -/
def State.emptied (m : Nat) (s : State) (l : Label) : Prop :=
  s.loop = .closing m [] → l = .loop .resume → ∀ id, s.stream m id = none

/-! ## How far it is -/

/-- Of the streams of `m`, those in `done` are closed. -/
structure ClosedSome (m : Nat) (done : List UInt32) (s t : State) (fds : List Fd) : Prop where
  /-- the manager is still there -/
  alive : m ∈ t.managers
  /-- it is still watched -/
  watched : t.watcher.watchedSockets = s.watcher.watchedSockets
  /-- these streams are gone, and no other -/
  stream : ∀ id, t.stream m id = if id ∈ done then none else s.stream m id
  /-- there is a CLOSE for each of them -/
  sentTo : t.sentTo m = s.sentTo m ++ done.map (closeFrame 0x02)
  /-- their descriptors were closed, in this order -/
  closedFds : t.closedFds = s.closedFds ++ s.fdsOf m done
  /-- they are free, and no other -/
  files : ∀ fd, t.kernel.files fd = if fd ∈ s.fdsOf m done then none else s.kernel.files fd
  /-- and out of the epoll set -/
  epoll : ∀ fd, fd ∈ t.kernel.epoll ↔
    fd ∈ s.kernel.epoll ∧ fd ∉ s.fdsOf m done ∧ fd ∉ fds
  /-- every other manager is as it was -/
  others : ∀ m' ≠ m, t.managers.lookup m' = s.managers.lookup m'
  /-- and was sent nothing -/
  silent : ∀ m' ≠ m, t.sentTo m' = s.sentTo m'

theorem closedFds_closeStream {id : UInt32} {removePoll : Bool} {origin : Origin} :
    (t.closeStream env m id removePoll origin).closedFds =
      t.closedFds ++ [(t.binding m id).getD 0] := by
  have hlog : ∃ status sock, (t.closeStream env m id removePoll origin).log = t.log ++
      [.sent m (closeFrame 0x02 id) status origin, .closed ((t.binding m id).getD 0) sock] := by
    rw [← State.fd_default]
    cases removePoll <;> exact ⟨_, _, List.append_assoc t.log [_] [_]⟩
  obtain ⟨status, sock, hlog⟩ := hlog
  rw [State.closedFds, State.closedFds, hlog, List.filterMap_append]
  rfl

theorem lookup_closeStream_ne {m' : Nat} {id : UInt32} {removePoll : Bool} {origin : Origin}
    (h : m' ≠ m) :
    (t.closeStream env m id removePoll origin).managers.lookup m' = t.managers.lookup m' := by
  cases removePoll <;> exact State.lookup_modifyManager_ne h _

namespace ClosedSome

theorem aside {fds' : List Fd} (h : ClosedSome m done s t fds) (ha : Aside t u fds') :
    ClosedSome m done s u (fds ++ fds') where
  alive := ha.managers ▸ h.alive
  watched := ha.watched.trans h.watched
  stream id := by rw [State.stream_of_managers ha.managers, h.stream]
  sentTo := by rw [ha.sentTo, h.sentTo]
  closedFds := by rw [ha.closedFds, h.closedFds]
  files fd := by rw [ha.files, h.files]
  epoll fd := by rw [ha.epoll fd, h.epoll fd, List.mem_append, not_or, and_assoc, and_assoc]
  others m' hne := by rw [ha.managers, h.others m' hne]
  silent m' hne := by rw [ha.sentTo, h.silent m' hne]

/-- The loop thread moves on. -/
theorem setLoop (h : ClosedSome m done s t fds) (l : LoopState) :
    ClosedSome m done s { t with loop := l } fds :=
  ⟨h.alive, h.watched, h.stream, h.sentTo, h.closedFds, h.files, h.epoll, h.others, h.silent⟩

/-- At the start nothing is done. -/
theorem start (halive : m ∈ s.managers) : ClosedSome m [] s (s.forceClose m) [] where
  alive := State.mem_modifyManager.mpr halive
  watched := rfl
  stream id := by
    rw [if_neg List.not_mem_nil]
    exact congrFun (congrFun State.stream_setBackpressure m) id
  sentTo := (List.append_nil _).symm
  closedFds := (List.append_nil _).symm
  files fd := (if_neg List.not_mem_nil).symm
  epoll fd := by
    rw [and_iff_left ⟨List.not_mem_nil, List.not_mem_nil⟩]
    rfl
  others m' hne := State.lookup_modifyManager_ne hne _
  silent _ _ := rfl

/-- One more stream is closed. -/
theorem closeNext {id : UInt32} {ids : List UInt32} (h : ClosedSome m done s t fds)
    (hid : id ∉ done) : ClosedSome m (done ++ [id]) s (t.closeNext env m id ids) fds := by
  have hbinding : t.binding m id = s.binding m id := by
    rw [State.binding, State.binding, h.stream, if_neg hid]
  have hfds : s.fdsOf m (done ++ [id]) = s.fdsOf m done ++ [(t.binding m id).getD 0] := by
    rw [State.fdsOf, List.map_append, List.map_singleton, hbinding]
    rfl
  refine ClosedSome.setLoop (t := t.closeStream env m id true .server) ?_ _
  refine ⟨State.mem_closeStream.mpr h.alive, h.watched, fun id' => ?_, ?_, ?_, fun fd => ?_,
    fun fd => ?_, fun m' hne => ?_, fun m' hne => ?_⟩
  · rw [State.stream_closeStream_self, h.stream]
    simp only [List.mem_append, List.mem_singleton]
    split <;> simp_all
  · rw [State.sentTo_closeStream_self, h.sentTo, List.map_append, List.append_assoc]
    rfl
  · rw [closedFds_closeStream, h.closedFds, hfds, List.append_assoc]
  · rw [State.files_closeStream, hfds]
    change Function.update t.kernel.files _ none fd = _
    rw [Function.update_apply, h.files]
    simp only [List.mem_append, List.mem_singleton]
    split <;> simp_all
  · rw [State.mem_epoll_closeStream, h.epoll, hfds, List.mem_append, List.mem_singleton, not_or]
    tauto
  · exact (lookup_closeStream_ne hne).trans (h.others m' hne)
  · rw [State.sentTo_closeStream_ne (Ne.symm hne), h.silent m' hne]

end ClosedSome

/-- How far the handler is. The watcher took `fds` out of the epoll set meanwhile, and `ok`
tells whether the destructor found no stream. -/
inductive TeardownAt (m : Nat) (s : State) (fds : List Fd) (ok : Prop) (t : State) : Prop where
  /-- it has not listed the ids -/
  | listing : t.loop = .forceClose m → ClosedSome m [] s t fds → ok → TeardownAt m s fds ok t
  /-- it has closed some of the streams -/
  | closing {done ids : List UInt32} : t.loop = .closing m ids → (done ++ ids).Nodup →
      (∀ id, id ∈ done ++ ids ↔ s.stream m id ≠ none) → ClosedSome m done s t fds → ok →
      TeardownAt m s fds ok t
  /-- it is done -/
  | ended : t.loop = .idle → TornDown m s t fds → ok → TeardownAt m s fds ok t

theorem LoopMove.of_forceClose {l : LoopLabel} (h : LoopMove env s l t)
    (hl : s.loop = .forceClose m) : t = s.listIds m := by
  cases h
  case listIds hl' hfree =>
    obtain rfl := LoopState.forceClose.inj (hl.symm.trans hl')
    rfl
  all_goals simp_all

theorem LoopMove.of_closing {l : LoopLabel} {ids : List UInt32} (h : LoopMove env s l t)
    (hl : s.loop = .closing m ids) :
    ids = [] ∧ t = s.destruct m ∨ ∃ id ids', ids = id :: ids' ∧ t = s.closeNext env m id ids' := by
  cases h
  case closeNext id ids' hl' hfree =>
    obtain ⟨rfl, rfl⟩ := LoopState.closing.inj (hl.symm.trans hl')
    exact Or.inr ⟨id, ids', rfl, rfl⟩
  case destruct hl' =>
    obtain ⟨rfl, rfl⟩ := LoopState.closing.inj (hl.symm.trans hl')
    exact Or.inl ⟨rfl, rfl⟩
  all_goals simp_all

theorem binding_of_stream {id : UInt32} (h : s.stream m id ≠ none) :
    ∃ fd, s.binding m id = some fd := by
  obtain ⟨d, hd⟩ := Option.ne_none_iff_exists'.mp h
  exact ⟨d.fd, State.binding_eq_some.mpr ⟨d, hd, rfl⟩⟩

/-- The descriptors of streams that exist. -/
theorem mem_fdsOf {ids : List UInt32} (h : ∀ id ∈ ids, s.stream m id ≠ none) {fd : Fd} :
    fd ∈ s.fdsOf m ids ↔ ∃ id ∈ ids, s.binding m id = some fd := by
  rw [State.fdsOf, List.mem_map]
  refine exists_congr fun id => and_congr_right fun hid => ?_
  obtain ⟨fd', hfd'⟩ := binding_of_stream (h id hid)
  rw [hfd', Option.getD_some, Option.some_inj]

/-- Different streams have different descriptors. -/
theorem TableOk.nodup_fdsOf (h : TableOk s) {ids : List UInt32} (hids : ids.Nodup)
    (hpresent : ∀ id ∈ ids, s.stream m id ≠ none) : (s.fdsOf m ids).Nodup := by
  refine List.Nodup.map_on (fun id hid id' hid' he => ?_) hids
  obtain ⟨fd, hfd⟩ := binding_of_stream (hpresent id hid)
  obtain ⟨fd', hfd'⟩ := binding_of_stream (hpresent id' hid')
  rw [hfd, hfd', Option.getD_some, Option.getD_some] at he
  exact (h.unique hfd (he ▸ hfd')).2

/-- The manager is deleted. -/
theorem ClosedSome.destruct (h : ClosedSome m done s t fds) (htable : TableOk s)
    (hnodup : done.Nodup) (hall : ∀ id, id ∈ done ↔ s.stream m id ≠ none) :
    TornDown m s (t.destruct m) fds := by
  have hpresent : ∀ id ∈ done, s.stream m id ≠ none := fun id hid => (hall id).mp hid
  have hfds : ∀ fd, fd ∈ s.fdsOf m done ↔ ∃ id, s.binding m id = some fd := by
    intro fd
    rw [mem_fdsOf hpresent]
    refine exists_congr fun id => and_iff_right_of_imp fun hfd => (hall id).mpr fun hnone => ?_
    rw [State.binding, hnone] at hfd
    cases hfd
  refine ⟨fun hmem => (State.mem_destruct.mp hmem).1 rfl, ?_,
    ⟨done, hnodup, hall, htable.nodup_fdsOf hnodup hpresent, h.sentTo, h.closedFds⟩,
    fun id fd hfd => ?_, fun fd hfd => ?_, fun fd => ?_, fun m' hne => ?_,
    fun m' hne id' fd hfd' id hfd => hne (htable.unique hfd' hfd).1, h.silent⟩
  · change t.watcher.watchedSockets.filter (· ≠ m) = _
    rw [h.watched]
  · exact (h.files fd).trans (if_pos ((hfds fd).mpr ⟨id, hfd⟩))
  · exact (h.files fd).trans (if_neg fun hmem => (not_exists.mpr hfd) ((hfds fd).mp hmem))
  · refine (h.epoll fd).trans (and_congr_right' (and_congr_left' ?_))
    rw [hfds fd, not_exists]
  · exact (AList.lookup_erase_ne hne).trans (h.others m' hne)

namespace TeardownAt

variable {ok : Prop}

/-- A further step of the loop thread. -/
theorem loopMove {l : LoopLabel} (h : TeardownAt m s fds ok t) (htable : TableOk s)
    (hbusy : t.loop ≠ .idle) (hs : LoopMove env t l u) :
    TeardownAt m s fds (ok ∧ t.emptied m (.loop l)) u := by
  cases h with
  | listing hl hsome hok =>
    obtain rfl := hs.of_forceClose hl
    have hstream : ∀ id, t.stream m id = s.stream m id := fun id => hsome.stream id
    refine @TeardownAt.closing _ _ _ _ _ [] _ rfl nodup_ids (fun id => ?_) (hsome.setLoop _)
      ⟨hok, fun hempty => ?_⟩
    · rw [List.nil_append, mem_ids, State.binding_ne_none, hstream]
    · simp [hl] at hempty
  | @closing done ids hl hnodup hall hsome hok =>
    rcases hs.of_closing hl with ⟨rfl, rfl⟩ | ⟨id, ids', rfl, rfl⟩
    · rw [List.append_nil] at hnodup hall
      refine .ended rfl (hsome.destruct htable hnodup hall) ⟨hok, fun _ _ id => ?_⟩
      rw [hsome.stream]
      split
      · rfl
      · rename_i hid
        exact not_not.mp fun hne => hid ((hall id).mpr hne)
    · have hid : id ∉ done := fun hmem =>
        (List.nodup_append.mp hnodup).2.2 id hmem id List.mem_cons_self rfl
      rw [List.append_cons] at hnodup hall
      refine .closing rfl hnodup hall (hsome.closeNext hid) ⟨hok, fun hempty => ?_⟩
      simp [hl] at hempty
  | ended hl _ _ => exact absurd hl hbusy

/-- A step of another thread. -/
theorem aside {l : Label} (h : TeardownAt m s fds ok t) (hbusy : t.loop ≠ .idle)
    (hl : ∀ l', l ≠ .loop l') (ha : Aside t u (t.erases l).toList) :
    TeardownAt m s (fds ++ (t.erases l).toList) (ok ∧ t.emptied m l) u := by
  have hempty : t.emptied m l := fun _ he => absurd he (hl _)
  cases h with
  | listing hloop hsome hok => exact .listing (ha.loop.trans hloop) (hsome.aside ha) ⟨hok, hempty⟩
  | closing hloop hnodup hall hsome hok =>
    exact .closing (ha.loop.trans hloop) hnodup hall (hsome.aside ha) ⟨hok, hempty⟩
  | ended hloop _ _ => exact absurd hloop hbusy

end TeardownAt

/-! ## Afterwards -/

/-- A step with the frame brings no manager. -/
theorem SameTable.managers_subset (h : SameTable s t) :
    t.id = s.id ∧ ∀ m ∈ t.managers, m ∈ s.managers :=
  ⟨h.id, fun m hm => (h.alive m).mp hm⟩

/-- Managers only come with an id of their own. -/
theorem LoopMove.mem_managers {l : LoopLabel} (hs : LoopMove env s l t) :
    (t.id = s.id ∧ ∀ m ∈ t.managers, m ∈ s.managers) ∨
      t.id = s.id + 1 ∧ ∀ m ∈ t.managers, m = s.id ∨ m ∈ s.managers := by
  cases hs with
  | opened hi => exact Or.inr ⟨rfl, fun m hm => State.mem_construct.mp hm⟩
  | info hi hm hp hty => exact Or.inl (SameTable.refl s).managers_subset
  | other hi hm hp hc hd => exact Or.inl (SameTable.endHandshake s _).managers_subset
  | connect hi hm hp hty hcm hid =>
    exact Or.inl ((SameTable.endHandshake s _).trans (.setLoop _ _)).managers_subset
  | refuse hi hm hp hty hcm hid =>
    exact Or.inl ((SameTable.endHandshake s _).trans (.refuse _ _)).managers_subset
  | data hi hm hp hty =>
    exact Or.inl ((SameTable.endHandshake s _).trans (.handleData _ _ _)).managers_subset
  | drain hi hm => exact Or.inl (SameTable.drain s _).managers_subset
  | close hi hm => exact Or.inl (SameTable.forceClose s _).managers_subset
  | @deferred p rest hi hd =>
    have hpop : SameTable s { s with deferred := rest } := .of_eq rfl rfl rfl rfl
    exact Or.inl ((hpop.trans (.deliverAll _ p _)).trans (.setLoop _ _)).managers_subset
  | socketFail hl => exact Or.inl (SameTable.refuse s _).managers_subset
  | socket hfd hl => exact Or.inl ⟨rfl, fun _ hm => hm⟩
  | connected hl => exact Or.inl ⟨rfl, fun _ hm => hm⟩
  | connectFail hl => exact Or.inl ⟨rfl, fun _ hm => hm⟩
  | pushFd hl => exact Or.inl (SameTable.pushFd s _ _ _).managers_subset
  | insert hl hfree => exact Or.inl ⟨rfl, fun _ hm => State.mem_modifyManager.mp hm⟩
  | listIds hl hfree => exact Or.inl ⟨rfl, fun _ hm => hm⟩
  | closeNext hl hfree => exact Or.inl ⟨rfl, fun _ hm => State.mem_closeStream.mp hm⟩
  | destruct hl => exact Or.inl ⟨rfl, fun _ hm => (State.mem_destruct.mp hm).2⟩
  | closeFound hl hfree => exact Or.inl ⟨rfl, fun _ hm => State.mem_closeStream.mp hm⟩
  | decrement hl => exact Or.inl ⟨rfl, fun _ hm => hm⟩
  | check hl => exact Or.inl ⟨rfl, fun _ hm => hm⟩
  | sweepDone hl => exact Or.inl ⟨rfl, fun _ hm => hm⟩
  | sweep hl => exact Or.inl ((SameTable.updateStreams s _).trans (.setLoop _ _)).managers_subset

theorem step_mem_managers {l : Label} (hs : s.step env l = some t) :
    (t.id = s.id ∧ ∀ m ∈ t.managers, m ∈ s.managers) ∨
      t.id = s.id + 1 ∧ ∀ m ∈ t.managers, m = s.id ∨ m ∈ s.managers := by
  cases l with
  | loop l => exact (loopStep_cases hs).mem_managers
  | watch w => exact Or.inl (watchStep_cases hs).sameTable.managers_subset
  | worker w => exact Or.inl (workerStep_cases hs).sameTable.managers_subset
  | rehash m' streams => exact Or.inl (State.rehash_frame hs).1.managers_subset
  | rehashSockets ms =>
    obtain ⟨-, -, rfl⟩ := State.rehashSockets_frame hs
    exact Or.inl ⟨rfl, fun _ hm => hm⟩

theorem id_le_step {l : Label} (hs : s.step env l = some t) : s.id ≤ t.id := by
  rcases step_mem_managers hs with ⟨hid, -⟩ | ⟨hid, -⟩ <;> omega

/-- A manager that is gone stays gone. -/
theorem gone_step {l : Label} (hs : s.step env l = some t) (hid : m < s.id)
    (hm : m ∉ s.managers) : m ∉ t.managers := by
  rcases step_mem_managers hs with ⟨-, hsub⟩ | ⟨-, hsub⟩
  · exact fun hmem => hm (hsub m hmem)
  · intro hmem
    rcases hsub m hmem with rfl | hmem
    · exact Nat.lt_irrefl _ hid
    · exact hm hmem

/-- A message comes from a websocket that is open. -/
theorem notFrom_of_gone {l : Label} (hs : s.step env l = some t) (hm : m ∉ s.managers) :
    l.notFrom m = true := by
  cases l with
  | loop l' =>
    cases l' with
    | message m' view =>
      refine decide_eq_true ?_
      rintro rfl
      change s.loopStep env (.message m' view) = some t at hs
      rw [State.loopStep, Option.ite_none_right_eq_some] at hs
      exact hm hs.1.2
    | _ => rfl
  | _ => rfl

/-- And is sent nothing. -/
theorem silent_step {l : Label} (hs : s.step env l = some t) (hw : WellBound s)
    (hid : m < s.id) (hm : m ∉ s.managers) : t.sentTo m = s.sentTo m := by
  cases step_clientMove hs hw (notFrom_of_gone hs hm) with
  | @quiet frames _ _ hsent _ hframes =>
    have hnil : frames = [] := by
      by_contra hne
      exact hm (hframes hne)
    rw [hsent, hnil, List.append_nil]
  | opened hopen _ _ _ _ => omega
  | refuse halive _ _ _ _ => exact absurd halive hm
  | insert halive _ _ _ _ => exact absurd halive hm
  | close hstream _ _ _ =>
    obtain ⟨d, hd⟩ := Option.ne_none_iff_exists'.mp hstream
    exact absurd (State.mem_managers_of_stream hd) hm
  | renew halive _ _ _ _ _ => exact absurd halive hm

/-- **Closures look into managers that are watched**, in every reachable state. -/
theorem closure_touches_watched (hw : WellBound s) :
    ∀ m ∈ s.touched, m ∈ s.watcher.watchedSockets := by
  intro m hm
  have hloop := hw.loop
  rw [State.touched] at hm
  cases hl : s.loop with
  | idle =>
    rw [hl] at hm
    obtain ⟨p, -, hp⟩ := List.mem_flatMap.mp hm
    obtain ⟨h, hh, rfl⟩ := List.mem_map.mp hp
    exact (mem_holders.mp hh).1
  | closeFound p m' id =>
    rw [hl] at hm hloop
    obtain rfl := List.mem_singleton.mp hm
    exact (hw.table.watched m).mpr (State.mem_managers_of_binding hloop)
  | sweep ms =>
    rw [hl] at hm hloop
    exact (hw.table.watched m).mpr (hloop m hm)
  | _ =>
    rw [hl] at hm
    exact absurd hm List.not_mem_nil

/-- What follows on the end of a websocket. -/
theorem Quit.of_run (hw : WellBound s) (hid : m < s.id) (hm : m ∉ s.managers) {ls : List Label}
    (h : (server env).Run (fun _ _ => True) s ls t) : Quit m s t := by
  have hall : WellBound t ∧ m < t.id ∧ m ∉ t.managers ∧ t.sentTo m = s.sentTo m := by
    refine h.preserves (I := fun u => WellBound u ∧ m < u.id ∧ m ∉ u.managers ∧
      u.sentTo m = s.sentTo m) ?_ ⟨hw, hid, hm, rfl⟩
    rintro u l v - hst ⟨hw, hid, hm, hsent⟩
    exact ⟨hw.step hst, Nat.lt_of_lt_of_le hid (id_le_step hst), gone_step hst hid hm,
      (silent_step hst hw hid hm).trans hsent⟩
  obtain ⟨hw, -, hm, hsent⟩ := hall
  exact ⟨hm, fun hmem => hm ((hw.table.watched m).mp hmem), hsent, closure_touches_watched hw⟩

/-! ## The result -/

/-- The invariant of the handler, from its first step on. -/
theorem HandlerRun.teardownAt {ls : List Label} (h : HandlerRun env s (.close m) ls t)
    (htable : TableOk s) :
    TeardownAt m s (s.erased env (.loop (.close m) :: ls))
      (AllAlong env (State.emptied m) s (.loop (.close m) :: ls)) t := by
  refine h.invariant (P := State.emptied m) (I := TeardownAt m s) (fun u hs => ?_)
    (fun _ _ _ _ _ hI hbusy hs => hI.loopMove htable hbusy hs)
    (fun _ _ _ _ _ hI hbusy hl ha => hI.aside hbusy hl ha)
  cases hs with
  | close hi hm => exact .listing rfl (.start hm) fun hempty => by simp [hi] at hempty

/-- **The teardown of a websocket is complete and local**, whatever the other threads do
meanwhile, and final. -/
theorem teardown_complete {ls : List Label} (hreach : (server env).Reachable s)
    (h : HandlerRun env s (.close m) ls t) :
    TornDown m s t (s.erased env (.loop (.close m) :: ls)) ∧
      AllAlong env (State.emptied m) s (.loop (.close m) :: ls) ∧
      QuitForGood env m t := by
  have hw : WellBound s := .of_reaches hreach
  obtain ⟨htorn, hemptied⟩ : TornDown m s t (s.erased env (.loop (.close m) :: ls)) ∧
      AllAlong env (State.emptied m) s (.loop (.close m) :: ls) := by
    cases h.teardownAt hw.table with
    | listing hl _ _ => simp [h.idle] at hl
    | closing hl _ _ _ _ => simp [h.idle] at hl
    | ended _ htorn hok => exact ⟨htorn, hok⟩
  refine ⟨htorn, hemptied, fun ls' u hrun => ?_⟩
  obtain ⟨v, hv, hvt⟩ := h.run
  have hwv : WellBound v := hw.step hv
  have hmove : LoopMove env s (.close m) v := loopStep_cases hv
  have hlt : m < v.id := by
    refine Nat.lt_of_lt_of_le (hw.table.fresh m ?_) (id_le_step hv)
    cases hmove with
    | close hi hm => exact hm
  have ht : WellBound t ∧ m < t.id :=
    hvt.preserves (I := fun u => WellBound u ∧ m < u.id) (fun _ _ _ _ hst hI =>
      ⟨hI.1.step hst, Nat.lt_of_lt_of_le hI.2 (id_le_step hst)⟩) ⟨hwv, hlt⟩
  exact .of_run ht.1 ht.2 htorn.deleted hrun

/-- Two websockets, and streams of both. -/
def threeStreams : State := (server {}).final (fun _ _ => True)
  [[.loop .opened, .loop .opened], connectLabels 0 1 7, connectLabels 1 1 8,
    connectLabels 0 2 9].flatten

/-- The close handler for two streams, after its first step. -/
def closeBoth : List Label := List.replicate 4 (.loop .resume)

theorem teardown_complete_closeBoth :
    TornDown 0 threeStreams (handlerEnd {} threeStreams (.close 0) closeBoth)
        (threeStreams.erased {} (.loop (.close 0) :: closeBoth)) ∧
      AllAlong {} (State.emptied 0) threeStreams (.loop (.close 0) :: closeBoth) ∧
      QuitForGood {} 0 (handlerEnd {} threeStreams (.close 0) closeBoth) :=
  teardown_complete (System.reaches_final _ _ _ (by decide +kernel))
    (.of_replay (by decide +kernel) (by decide +kernel) (by decide +kernel))

end Woeful
