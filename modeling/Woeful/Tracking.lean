import Woeful.Flow

/-!
# A pass and its descriptor

A closure knows its stream by the number of a descriptor only, and numbers are reused.
In the runs of `Calm` the number is still right when the closure runs: the descriptor of
a pass stays attached to the connection it was read from until then, since only a
closure closes descriptors (`connect` failed on the others before they were
registered), and a closure that closes is the last one for its descriptor
(`Tracked.last`): the watcher took it out of the epoll set before it queued the closure,
and no event for it was left.
-/

namespace Woeful

open Memory Transition Log

variable {env : Env} {s t : State} {p : Pass} {fd : Fd}

/-! ## The invariant -/

/-- A descriptor that a stream holds, or that is registered for a stream to be stored. -/
def State.Attached (s : State) (fd : Fd) : Prop :=
  (∃ m id, s.binding m id = some fd) ∨ s.loop.inserting? = some fd

theorem LoopState.inserting?_eq_some {l : LoopState} (h : l.inserting? = some fd) :
    ∃ c, l = .insert c fd := by
  cases l with
  | insert c fd' =>
    obtain rfl := Option.some.inj h
    exact ⟨c, rfl⟩
  | _ => cases h

/-- An attached descriptor stands for a socket. -/
theorem State.Attached.sockAt (h : s.Attached fd) (hw : WellBound s) :
    ∃ k, s.kernel.sockAt fd = some k := by
  rcases h with ⟨m, id, hb⟩ | hins
  · obtain ⟨k, hk, -⟩ := hw.table.owned m id fd hb
    exact ⟨k, hk⟩
  · obtain ⟨c, hl⟩ := LoopState.inserting?_eq_some hins
    have hloop := hw.loop
    rw [hl] at hloop
    obtain ⟨k, hk, -⟩ := hloop.opened
    exact ⟨k, hk⟩

/-- Outside an insertion, an attached descriptor is held by a stream. -/
theorem State.Attached.bound {l : LoopState} (h : s.Attached fd) (hl : s.loop = l)
    (hnone : l.inserting? = none) : ∃ m id, s.binding m id = some fd := by
  refine h.resolve_right fun hins => ?_
  rw [hl, hnone] at hins
  cases hins

/-- What a pass relies on until its closure is over. -/
structure OnTrack (s : State) (p : Pass) : Prop where
  /-- its descriptor is attached -/
  attached : s.Attached p.fd
  /-- and stands for the socket it has read from -/
  current : ∀ r ∈ p.reads, r.sock = s.kernel.sockAt p.fd
  /-- if it is to close its stream, no event for its descriptor is to come -/
  ended : p.toClose = true → p.fd ∉ s.watcher.events ∧
    (s.watcher.phase ≠ .erasing p → p.fd ∉ s.kernel.epoll)

/-- The passes are on track, in order, and so are those that may start. -/
structure Tracked (env : Env) (s : State) : Prop where
  /-- what is registered is attached -/
  registered : ∀ fd ∈ s.kernel.epoll, fd = env.pipes0 ∨ s.Attached fd
  /-- so is what has an event -/
  ready : ∀ fd ∈ s.watcher.events, fd = env.pipes0 ∨ s.Attached fd
  /-- there is one event for a descriptor -/
  nodup : s.watcher.events.Nodup
  /-- and none for that of the current pass -/
  once : ∀ p, s.watcher.phase.pass? = some p → p.fd ∉ s.watcher.events
  /-- the passes are on track -/
  passes : ∀ p ∈ s.openPasses, OnTrack s p
  /-- no pass follows one that is to close its stream -/
  last : s.openPasses.Pairwise fun p q => p.toClose = true → q.fd ≠ p.fd
  /-- the watcher goes on reading until it finds that the stream is to be closed -/
  reading : ∀ p, s.watcher.phase = .reading p → p.toClose = false
  /-- and only then the closure closes it -/
  closing : ∀ p, s.loop.pass? = some p → p.toClose = true

/-- After a read that closes, the descriptor is erased. -/
theorem State.afterRead_of_closes (p : Pass) {result : ReadResult} (h : result.closes = true) :
    State.afterRead p result = .erasing p := by
  cases result with
  | eof => rfl
  | error => rfl
  | bytes buf => cases h
  | again => cases h

/-- The watcher reads on only after a read that does not close. -/
theorem State.afterRead_reading {q : Pass} {result : ReadResult}
    (h : State.afterRead p result = .reading q) : q = p ∧ result.closes = false := by
  cases result with
  | bytes buf =>
    rw [State.afterRead] at h
    split at h
    · cases h
    · exact ⟨(WatcherPhase.reading.inj h).symm, rfl⟩
  | eof => cases h
  | again => cases h
  | error => cases h

/-- The passes, with the one the watcher is in apart. -/
theorem State.openPasses_eq (s : State) : s.openPasses =
    (s.loop.pass?.toList ++ s.deferred) ++ s.watcher.phase.pass?.toList :=
  (List.append_assoc _ _ _).symm

namespace Tracked

theorem sublist_of_eq {A : Type} {l l' : List A} (h : l = l') : l.Sublist l' := h ▸ .refl l

/-- A step by which descriptors stay attached, nothing is registered, no event comes
and no pass starts. -/
theorem of_less (h : Tracked env s) (hopen : t.openPasses.Sublist s.openPasses)
    (hpass : ∀ p, t.loop.pass? = some p → s.loop.pass? = some p ∨ p.toClose = true)
    (hattached : ∀ fd, s.Attached fd → t.Attached fd)
    (hsock : ∀ fd, s.Attached fd → t.kernel.sockAt fd = s.kernel.sockAt fd)
    (hepoll : ∀ fd ∈ t.kernel.epoll, fd ∈ s.kernel.epoll)
    (hevents : t.watcher.events.Sublist s.watcher.events)
    (hphase : ∀ p, t.watcher.phase.pass? = some p → s.watcher.phase.pass? = some p)
    (hreading : ∀ p, t.watcher.phase = .reading p → s.watcher.phase = .reading p)
    (herased : ∀ p, s.watcher.phase = .erasing p → t.watcher.phase ≠ .erasing p →
      p.fd ∉ t.kernel.epoll) : Tracked env t where
  registered fd hfd := (h.registered fd (hepoll fd hfd)).imp_right (hattached fd)
  ready fd hfd := (h.ready fd (hevents.subset hfd)).imp_right (hattached fd)
  nodup := hevents.nodup h.nodup
  once p hp hfd := h.once p (hphase p hp) (hevents.subset hfd)
  passes p hp := by
    have hold := h.passes p (hopen.subset hp)
    refine ⟨hattached _ hold.attached, fun r hr => ?_, fun hc => ⟨fun hfd => ?_, fun he => ?_⟩⟩
    · rw [hsock _ hold.attached]
      exact hold.current r hr
    · exact (hold.ended hc).1 (hevents.subset hfd)
    · by_cases hs : s.watcher.phase = .erasing p
      · exact herased p hs he
      · exact fun hfd => (hold.ended hc).2 hs (hepoll _ hfd)
  last := h.last.sublist hopen
  reading p hp := h.reading p (hreading p hp)
  closing p hp := (hpass p hp).elim (h.closing p) id

/-! ## The watcher moves -/

/-- A descriptor with an event is not that of a pass that closes. -/
theorem ne_of_event (h : Tracked env s) {q : Pass} (hq : q ∈ s.openPasses)
    (hc : q.toClose = true) (hfd : fd ∈ s.watcher.events) : fd ≠ q.fd := by
  rintro rfl
  exact ((h.passes q hq).ended hc).1 hfd

/-- A pass starts. -/
theorem start {events : List Fd} (h : Tracked env s) (hp : s.watcher.phase = .next)
    (he : s.watcher.events = fd :: events) (hne : fd ≠ env.pipes0) :
    Tracked env { s with watcher := { s.watcher with
      events := events
      phase := .reading (Pass.start fd s.watcher.passes)
      passes := s.watcher.passes + 1 } } := by
  have hmem : fd ∈ s.watcher.events := he ▸ List.mem_cons_self ..
  have hsub : ∀ fd' ∈ events, fd' ∈ s.watcher.events :=
    fun fd' hfd' => he ▸ List.mem_cons_of_mem _ hfd'
  have hnodup := h.nodup
  rw [he, List.nodup_cons] at hnodup
  have hopen : s.openPasses = s.loop.pass?.toList ++ s.deferred := by
    rw [State.openPasses_eq, hp]
    exact List.append_nil _
  refine ⟨h.registered, fun fd' hfd' => h.ready fd' (hsub fd' hfd'), hnodup.2, ?_, ?_, ?_, ?_,
    h.closing⟩
  · intro p hq
    obtain rfl := Option.some.inj hq
    exact hnodup.1
  · intro p hq
    rw [State.openPasses_eq] at hq
    rcases List.mem_append.mp hq with hq | hq
    · have hold := h.passes p (hopen ▸ hq)
      refine ⟨hold.attached, hold.current, fun hc => ?_⟩
      obtain ⟨hev, hgone⟩ := hold.ended hc
      exact ⟨fun hfd => hev (hsub _ hfd),
        fun _ => hgone (by rw [hp]; exact WatcherPhase.noConfusion)⟩
    · obtain rfl := List.mem_singleton.mp hq
      exact ⟨(h.ready fd hmem).resolve_left hne, (fun _ hr => nomatch hr), fun hc => nomatch hc⟩
  · -- there is an event for the descriptor, so no pass before is to close it
    rw [State.openPasses_eq]
    have hlast := h.last
    rw [hopen] at hlast
    refine List.pairwise_append.mpr ⟨hlast, List.pairwise_singleton _ _, fun q hq q' hq' hc => ?_⟩
    obtain rfl := List.mem_singleton.mp hq'
    exact h.ne_of_event (hopen ▸ hq) hc hmem
  · intro p hq
    obtain rfl := WatcherPhase.reading.inj hq
    rfl

/-- A read returns: the pass goes on with the socket its descriptor stands for. -/
theorem read {result : ReadResult} (h : Tracked env s) (hp : s.watcher.phase = .reading p) :
    Tracked env
      ((s.setPhase (State.afterRead (p.read ⟨s.kernel.sockAt p.fd, result⟩) result)).record
        (.read p.fd ⟨s.kernel.sockAt p.fd, result⟩)) := by
  have hopen : s.openPasses = (s.loop.pass?.toList ++ s.deferred) ++ [p] := by
    rw [State.openPasses_eq, hp]
    rfl
  have hfront : ∀ q ∈ s.loop.pass?.toList ++ s.deferred, q ∈ s.openPasses :=
    fun q hq => hopen ▸ List.mem_append_left _ hq
  have hself : p ∈ s.openPasses := hopen ▸ List.mem_append_right _ (List.mem_singleton_self p)
  have hopen' : State.openPasses ((s.setPhase (State.afterRead
      (p.read ⟨s.kernel.sockAt p.fd, result⟩) result)).record
        (.read p.fd ⟨s.kernel.sockAt p.fd, result⟩)) =
      (s.loop.pass?.toList ++ s.deferred) ++ [p.read ⟨s.kernel.sockAt p.fd, result⟩] := by
    rw [State.openPasses_eq]
    exact congrArg (_ ++ Option.toList ·) (State.pass?_afterRead _ result)
  have honce : p.fd ∉ s.watcher.events := h.once p (by rw [hp]; rfl)
  have hcloses : (p.read ⟨s.kernel.sockAt p.fd, result⟩).toClose = result.closes := by
    change (p.toClose || result.closes) = result.closes
    rw [h.reading p hp, Bool.false_or]
  refine ⟨h.registered, h.ready, h.nodup, fun q hq => ?_, fun q hq => ?_, ?_, fun q hq => ?_,
    h.closing⟩
  · obtain rfl := Option.some.inj ((State.pass?_afterRead _ result).symm.trans hq)
    exact honce
  · rw [hopen'] at hq
    rcases List.mem_append.mp hq with hq | hq
    · have hold := h.passes q (hfront q hq)
      refine ⟨hold.attached, hold.current, fun hc => ?_⟩
      obtain ⟨hev, hgone⟩ := hold.ended hc
      exact ⟨hev, fun _ => hgone (by rw [hp]; exact WatcherPhase.noConfusion)⟩
    · obtain rfl := List.mem_singleton.mp hq
      have hold := h.passes p hself
      refine ⟨hold.attached, fun r hr => ?_, fun hc => ⟨honce, fun hne => ?_⟩⟩
      · rcases List.mem_append.mp hr with hr | hr
        · exact hold.current r hr
        · exact congrArg Read.sock (List.mem_singleton.mp hr)
      · -- a read that closes is followed by the erasure
        exact absurd (State.afterRead_of_closes _ (hcloses ▸ hc)) hne
  · have hlast := h.last
    rw [hopen, List.pairwise_append] at hlast
    rw [hopen']
    refine List.pairwise_append.mpr ⟨hlast.1, List.pairwise_singleton _ _, fun q hq q' hq' => ?_⟩
    obtain rfl := List.mem_singleton.mp hq'
    exact hlast.2.2 q hq p (List.mem_singleton_self p)
  · obtain ⟨rfl, hc⟩ := State.afterRead_reading hq
    exact hcloses.trans hc

/-- **Every step of the watcher keeps the passes on track.** -/
theorem watchMove (hs : WatchMove env s t) (h : Tracked env s) : Tracked env t := by
  cases hs with
  | @wait events hp hnodup hepoll =>
    refine ⟨h.registered, fun fd hfd => h.registered fd (hepoll fd hfd), hnodup,
      (fun _ hq => nomatch hq), fun p hq => ?_, ?_, (fun _ hq => nomatch hq), h.closing⟩
    · rw [State.openPasses_eq] at hq
      have hold := h.passes p (by rw [State.openPasses_eq, hp]; exact hq)
      refine ⟨hold.attached, hold.current, fun hc => ?_⟩
      have hgone := (hold.ended hc).2 (by rw [hp]; exact WatcherPhase.noConfusion)
      exact ⟨fun hfd => hgone (hepoll _ hfd), fun _ => hgone⟩
    · have hlast := h.last
      rw [State.openPasses_eq, hp] at hlast
      rw [State.openPasses_eq]
      exact hlast
  | done hp he =>
    refine h.of_less (sublist_of_eq ?_) (fun _ => .inl) (fun _ => id) (fun _ _ => rfl)
      (fun _ => id) (.refl _) (fun _ hq => nomatch hq) (fun _ hq => nomatch hq) fun q hq => ?_
    · rw [State.openPasses_eq, State.openPasses_eq, hp]
      rfl
    · rw [hp] at hq
      cases hq
  | @skip events hp he =>
    exact h.of_less (.refl _) (fun _ => .inl) (fun _ => id) (fun _ _ => rfl) (fun _ => id)
      (he ▸ List.sublist_cons_self _ _) (fun _ => id) (fun _ => id) fun _ hq hne => absurd hq hne
  | start hp he hne => exact h.start hp he hne
  | read hp hr => exact h.read hp
  | @erase p hp =>
    refine h.of_less (sublist_of_eq ?_) (fun _ => .inl) (fun _ => id) (fun _ _ => rfl)
      ?_ (.refl _) ?_
      (fun _ hq => nomatch hq) fun q hq _ => ?_
    · rw [State.openPasses_eq, State.openPasses_eq, hp]
      rfl
    · exact fun fd hfd => (Kernel.mem_epoll_eraseFd.mp hfd).1
    · rw [hp]
      exact fun _ => id
    · rw [hp] at hq
      obtain rfl := WatcherPhase.erasing.inj hq
      exact fun hfd => (Kernel.mem_epoll_eraseFd.mp hfd).2 rfl
  | @count p hp =>
    refine h.of_less (sublist_of_eq ?_) (fun _ => .inl) (fun _ => id) (fun _ _ => rfl)
      (fun _ => id) (.refl _) ?_
      (fun _ hq => nomatch hq) fun q hq => ?_
    · rw [State.openPasses_eq, State.openPasses_eq, hp]
      rfl
    · rw [hp]
      exact fun _ => id
    · rw [hp] at hq
      cases hq
  | @defer p hp =>
    refine h.of_less (sublist_of_eq ?_) (fun _ => .inl) (fun _ => id) (fun _ _ => rfl)
      (fun _ => id) (.refl _) (fun _ hq => nomatch hq) (fun _ hq => nomatch hq) fun q hq => ?_
    · rw [State.openPasses_eq, State.openPasses_eq, hp]
      change _ ++ (s.deferred ++ [p]) ++ [] = _
      rw [List.append_nil, ← List.append_assoc]
      rfl
    · rw [hp] at hq
      cases hq

/-! ## The loop thread moves -/

/-- **The closure that runs finds its stream.** -/
theorem finds {rest : List Pass} (h : Tracked env s) (hi : s.loop = .idle)
    (hd : s.deferred = p :: rest) : ∃ m id, s.binding m id = some p.fd := by
  have hp := State.mem_openPasses_of_deferred hd
  exact (h.passes p hp).attached.bound hi rfl

/-- A descriptor that no stream holds is registered. -/
theorem register {c : ConnectCall} {ok : Bool} (h : Tracked env s) (hl : s.loop = .pushFd c fd)
    (hfree : ∀ m id, s.binding m id ≠ some fd) : Tracked env (s.pushFd c fd ok) := by
  have hopen : (s.pushFd c fd ok).openPasses = s.openPasses := (State.openPasses_of_loop hl).symm
  have hattached : ∀ fd', s.Attached fd' → (s.pushFd c fd ok).Attached fd' :=
    fun fd' hfd' => .inl (hfd'.bound hl rfl)
  refine ⟨fun fd' hfd' => ?_, fun fd' hfd' => (h.ready fd' hfd').imp_right (hattached fd'),
    h.nodup, h.once, fun p hp => ?_, hopen ▸ h.last, h.reading, fun _ hp => nomatch hp⟩
  · rcases Kernel.mem_epoll_pushFd hfd' with rfl | hold
    · exact .inr (.inr rfl)
    · exact (h.registered fd' hold).imp_right (hattached fd')
  · have hold := h.passes p (hopen ▸ hp)
    refine ⟨hattached _ hold.attached, fun r hr => ?_, fun hc => ?_⟩
    · exact (hold.current r hr).trans (congrFun Kernel.sockAt_pushFd.symm p.fd)
    · obtain ⟨hev, hgone⟩ := hold.ended hc
      refine ⟨hev, fun hne hfd => ?_⟩
      rcases Kernel.mem_epoll_pushFd hfd with he | hfd
      · obtain ⟨m, id, hb⟩ := hold.attached.bound hl rfl
        exact hfree m id (he ▸ hb)
      · exact hgone hne hfd

/-- A closure closes the stream it found: it is the last one for its descriptor. -/
theorem close {m : Nat} {streamId : UInt32} (h : Tracked env s)
    (hl : s.loop = .closeFound p m streamId) (hb : s.binding m streamId = some p.fd) :
    Tracked env (s.closeFound env p m streamId) := by
  have hopen : s.openPasses = p :: s.pendingPasses := State.openPasses_of_loop hl
  have hp : p ∈ s.openPasses := hopen ▸ List.mem_cons_self ..
  have hclose : p.toClose = true := h.closing p (by rw [hl]; rfl)
  have hlast := h.last
  rw [hopen, List.pairwise_cons] at hlast
  have hothers : ∀ q ∈ s.pendingPasses, q.fd ≠ p.fd := fun q hq => hlast.1 q hq hclose
  have hev : p.fd ∉ s.watcher.events := ((h.passes p hp).ended hclose).1
  -- what is attached stays so, unless it is the descriptor that is closed
  have hattached : ∀ fd, fd ≠ p.fd → s.Attached fd →
      (s.closeFound env p m streamId).Attached fd := by
    intro fd hne hfd
    obtain ⟨m', id', hb'⟩ := hfd.bound hl rfl
    refine .inl ⟨m', id', ?_⟩
    refine State.binding_closeStream.trans ?_
    rw [if_neg]
    · exact hb'
    · rintro ⟨rfl, rfl⟩
      exact hne (Option.some.inj (hb'.symm.trans hb))
  have hsock : ∀ fd, fd ≠ p.fd →
      (s.closeFound env p m streamId).kernel.sockAt fd = s.kernel.sockAt fd := by
    intro fd hne
    rw [State.sockAt_closeFound hb, Function.update_of_ne hne]
  have hepoll : ∀ fd ∈ (s.closeFound env p m streamId).kernel.epoll,
      fd ∈ s.kernel.epoll ∧ fd ≠ p.fd := by
    intro fd hfd
    have hmem := State.mem_epoll_closeStream.mp hfd
    rw [hb] at hmem
    exact hmem
  refine ⟨fun fd hfd => ?_, fun fd hfd => ?_, h.nodup, h.once, fun q hq => ?_, hlast.2, h.reading,
    fun _ hp => nomatch hp⟩
  · obtain ⟨hold, hne⟩ := hepoll fd hfd
    exact (h.registered fd hold).imp_right (hattached fd hne)
  · exact (h.ready fd hfd).imp_right (hattached fd fun he => hev (he ▸ hfd))
  · have hq : q ∈ s.pendingPasses := hq
    have hold := h.passes q (hopen ▸ List.mem_cons_of_mem _ hq)
    refine ⟨hattached _ (hothers q hq) hold.attached, fun r hr => ?_, fun hc => ?_⟩
    · rw [hsock _ (hothers q hq)]
      exact hold.current r hr
    · obtain ⟨hev, hgone⟩ := hold.ended hc
      exact ⟨hev, fun hne hfd => hgone hne (hepoll _ hfd).1⟩

/-- **Every step keeps the passes on track.** -/
theorem flowMove (hs : FlowMove env s t) (hw : WellBound s) (h : Tracked env s) :
    Tracked env t := by
  obtain ⟨htab, hloop⟩ := hw
  cases hs with
  | still hstill =>
    have hopen : t.openPasses = s.openPasses := by
      rw [State.openPasses_eq, State.openPasses_eq, hstill.pass, hstill.deferred, hstill.phase]
    refine h.of_less (sublist_of_eq hopen) (fun _ hp => .inl (hstill.pass ▸ hp)) (fun fd hfd => ?_)
      (fun _ _ => by rw [hstill.kernel]) (fun _ hfd => hstill.kernel ▸ hfd)
      (sublist_of_eq hstill.events) (fun _ hp => hstill.phase ▸ hp) (fun _ hp => hstill.phase ▸ hp)
      fun p hp hne => absurd (hstill.phase.trans hp) hne
    rw [State.Attached, hstill.binding, hstill.inserting]
    exact hfd
  | @socket c fd hfree hl heq =>
    subst heq
    have hopen : s.openPasses = s.pendingPasses := State.openPasses_of_loop hl
    refine h.of_less (sublist_of_eq hopen.symm) (fun _ hp => nomatch hp)
      (fun fd hfd => .inl (hfd.bound hl rfl)) (fun fd' hfd' => ?_) (fun _ => id) (.refl _)
      (fun _ => id) (fun _ => id) fun _ hp hne => absurd hp hne
    obtain ⟨m, id, hb⟩ := hfd'.bound hl rfl
    obtain ⟨n, hn, -⟩ := htab.owned m id fd' hb
    refine Kernel.sockAt_socket_ne hfree fun he => ?_
    rw [he, Kernel.sockAt_of_none hfree] at hn
    cases hn
  | @abandon c fd hl hnone heq =>
    subst heq
    rw [hl] at hloop
    have hopen : s.openPasses = s.pendingPasses := State.openPasses_of_loop hl
    refine h.of_less (sublist_of_eq hopen.symm) (fun _ hp => nomatch hp)
      (fun fd hfd => .inl (hfd.bound hl rfl)) (fun fd' hfd' => ?_)
      (fun _ hfd' => (Kernel.mem_epoll_close.mp hfd').1) (.refl _) (fun _ => id) (fun _ => id)
      fun _ hp hne => absurd hp hne
    obtain ⟨m, id, hb⟩ := hfd'.bound hl rfl
    refine Kernel.sockAt_close_ne fun he => ?_
    exact hloop.free m id (he ▸ hb)
  | register hl heq =>
    subst heq
    rw [hl] at hloop
    exact h.register hl hloop.free
  | @store c fd hl hnone heq =>
    subst heq
    rw [hl] at hloop
    have hopen : s.openPasses = s.pendingPasses := State.openPasses_of_loop hl
    refine h.of_less (sublist_of_eq hopen.symm) (fun _ hp => nomatch hp) (fun fd' hfd' => ?_)
      (fun _ _ => rfl) (fun _ => id) (.refl _) (fun _ => id) (fun _ => id)
      fun _ hp hne => absurd hp hne
    rcases hfd' with ⟨m, id, hb⟩ | hins
    · refine .inl ⟨m, id, ?_⟩
      rw [State.binding_insertStream hloop.alive, if_neg]
      · exact hb
      · rintro ⟨rfl, rfl⟩
        rw [hnone] at hb
        cases hb
    · rw [hl] at hins
      obtain rfl := Option.some.inj hins
      refine .inl ⟨c.manager, c.streamId, ?_⟩
      rw [State.binding_insertStream hloop.alive, if_pos ⟨rfl, rfl⟩]
  | watch hmove => exact h.watchMove hmove
  | @skip p rest hi hd hfree heq =>
    obtain ⟨m, id, hb⟩ := h.finds hi hd
    exact absurd hb (hfree m id)
  | @found p rest m streamId hi hd hb heq =>
    subst heq
    have hsame : SameTable s (s.runFound env p rest m streamId) := State.sameTable_runFound
    have hbinding := hsame.binding
    rw [State.runFound_frame] at hbinding ⊢
    have hopen : s.openPasses = p :: (rest ++ s.watcher.phase.pass?.toList) := by
      rw [State.openPasses, State.pendingPasses, hi, hd]
      rfl
    refine h.of_less ?_ ?_ (fun fd' hfd' => ?_) (fun _ _ => rfl) (fun _ => id) (.refl _)
      (fun _ => id) (fun _ => id) fun _ hp hne => absurd hp hne
    · rw [hopen]
      by_cases hc : p.toClose = true
      · simp only [hc, if_true]
        exact .refl _
      · simp only [hc]
        exact List.sublist_cons_self _ _
    · intro q hq
      dsimp only at hq
      split at hq
      · rename_i hc
        exact .inr (Option.some.inj hq ▸ hc)
      · cases hq
    · obtain ⟨m', id', hb'⟩ := hfd'.bound hi rfl
      refine .inl ⟨m', id', ?_⟩
      rw [hbinding]
      exact hb'
  | close hl hb heq =>
    subst heq
    exact h.close hl hb

theorem initial (env : Env) : Tracked env (State.initial env) where
  registered _ hfd := .inl (List.mem_singleton.mp hfd)
  ready _ hfd := nomatch hfd
  nodup := .nil
  once _ hp := nomatch hp
  passes _ hp := nomatch hp
  last := .nil
  reading _ hp := nomatch hp
  closing _ hp := nomatch hp

end Tracked

end Woeful
