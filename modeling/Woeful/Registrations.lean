import Woeful.Tracking

/-!
# No stream goes unheard

A stream is heard as long as its descriptor is registered with epoll. The watcher takes
descriptors out by their number, after a read that closes, and by then the number may be that
of another stream; and what it reads before a stream is stored it reads for nobody. Still a
stream whose registration the kernel accepted is registered as long as it exists, or a closure
is on its way that is going to close it (`streams_heard`): no client waits for a target that
nobody listens to.
-/

namespace Woeful

open Memory Transition

variable {env : Env} {s t : State} {fd : Fd}

/-! ## What a step does to the registrations -/

/-- What a step does to the interest list, and to the descriptors that are to be in it. -/
inductive Registration (s t : State) : Label → Prop where
  /-- nothing -/
  | keep {l : Label} : t.kernel.epoll = s.kernel.epoll → t.kernel.files = s.kernel.files →
      (∀ fd, t.Attached fd → s.Attached fd) → Registration s t l
  /-- a socket is made -/
  | socket {l : Label} {fd : Fd} {file : File} : s.kernel.files fd = none →
      t.kernel.epoll = s.kernel.epoll →
      t.kernel.files = Function.update s.kernel.files fd (some file) →
      (∀ fd, t.Attached fd → s.Attached fd) → Registration s t l
  /-- it is registered, if the kernel says so -/
  | register {c : ConnectCall} {fd : Fd} {ok : Bool} : s.loop = .pushFd c fd →
      t = s.pushFd c fd ok → Registration s t (.loop (.pushFd ok))
  /-- a socket is closed -/
  | close {l : Label} {fd : Fd} {k : Nat} : s.kernel.sockAt fd = some k →
      (∀ fd', fd' ∈ t.kernel.epoll ↔ fd' ∈ s.kernel.epoll ∧ fd' ≠ fd) →
      t.kernel.files = Function.update s.kernel.files fd none →
      (∀ fd', t.Attached fd' → s.Attached fd' ∧ fd' ≠ fd) → Registration s t l
  /-- the watcher takes a descriptor out -/
  | erase {l : Label} {p : Pass} : s.watcher.phase = .erasing p →
      t = { s.setPhase (.counting p) with kernel := s.kernel.eraseFd p.fd } → Registration s t l

/-- Outside an insertion, what is attached is what is bound. -/
theorem State.Attached.of_binding (h : t.Attached fd) (hins : t.loop.inserting? = none)
    (hbind : ∀ m id, t.binding m id = some fd → s.binding m id = some fd) : s.Attached fd := by
  rcases h with ⟨m, id, hb⟩ | hins'
  · exact Or.inl ⟨m, id, hbind m id hb⟩
  · rw [hins] at hins'
    cases hins'

/-- A step that has nothing to do with it. -/
theorem Registration.of_sameTable {l : Label} (h : SameTable s t)
    (hkernel : t.kernel = s.kernel) (hins : t.loop.inserting? = none) : Registration s t l :=
  .keep (by rw [hkernel]) (by rw [hkernel]) fun _ hfd =>
    hfd.of_binding hins fun _ _ hb => h.binding ▸ hb

/-- `close_stream`, of a stream that is present. -/
theorem Registration.of_closeStream {m : Nat} {id : UInt32} {removePoll : Bool} {origin : Origin}
    {loop : LoopState} {l : Label} (hw : WellBound s) (hb : s.binding m id = some fd)
    (hins : loop.inserting? = none) :
    Registration s { s.closeStream env m id removePoll origin with loop := loop } l := by
  obtain ⟨k, hk, -⟩ := hw.table.owned m id fd hb
  refine .close hk (fun fd' => ?_) ?_ fun fd' hfd' => ?_
  · exact State.mem_epoll_closeStream.trans (by rw [hb]; rfl)
  · refine Eq.trans State.files_closeStream ?_
    rw [hb]
    rfl
  · rcases hfd' with ⟨m', id', hb'⟩ | hins'
    · have hb' : (s.closeStream env m id removePoll origin).binding m' id' = some fd' := hb'
      rw [State.binding_closeStream] at hb'
      split at hb'
      · cases hb'
      · rename_i hne
        refine ⟨Or.inl ⟨m', id', hb'⟩, ?_⟩
        rintro rfl
        exact hne (hw.table.unique hb' hb)
    · exact absurd (hins.symm.trans hins') nofun

theorem LoopMove.registration {l : LoopLabel} (hs : LoopMove env s l t) (hw : WellBound s) :
    Registration s t (.loop l) := by
  have hidle : ∀ {l : LoopState}, l = .idle → l.inserting? = none := by
    rintro l rfl
    rfl
  have hloop := hw.loop
  cases hs with
  | opened hi =>
    refine .keep rfl rfl fun fd hfd => hfd.of_binding (hidle hi) fun m id hb => ?_
    rwa [State.binding_construct fun hm => Nat.lt_irrefl _ (hw.table.fresh _ hm)] at hb
  | info hi => exact .of_sameTable (.refl s) rfl (hidle hi)
  | other hi => exact .of_sameTable (.endHandshake s _) rfl (hidle hi)
  | connect hi => exact .of_sameTable ((SameTable.endHandshake s _).trans (.setLoop _ _)) rfl rfl
  | refuse hi => exact .of_sameTable ((SameTable.endHandshake s _).trans (.refuse _ _)) rfl rfl
  | @data m view packet hi =>
    have hsame : SameTable s ((s.endHandshake m).handleData env m packet).2 :=
      (SameTable.endHandshake s _).trans (.handleData _ _ _)
    rw [State.handleData_frame] at hsame ⊢
    exact .of_sameTable hsame rfl (hidle hi)
  | @drain m hi =>
    have hsame : SameTable s (s.drain env m) := .drain s m
    rw [State.drain_frame] at hsame ⊢
    exact .of_sameTable hsame rfl (hidle hi)
  | close hi => exact .of_sameTable (.forceClose s _) rfl rfl
  | @deferred p rest hi hd =>
    rcases deferred_cases hw.table p rest rfl with ⟨heq, -⟩ | ⟨m, id, -, heq⟩
    · rw [heq]
      exact .of_sameTable (.of_eq rfl rfl rfl rfl) rfl rfl
    · have hsame : SameTable s (s.runFound env p rest m id) := State.sameTable_runFound
      rw [heq]
      rw [State.runFound_frame] at hsame ⊢
      refine .of_sameTable hsame rfl ?_
      dsimp only
      split <;> rfl
  | socketFail hl => exact .of_sameTable (.refuse s _) rfl rfl
  | socket hfd hl => exact .socket hfd rfl rfl fun _ h => h.of_binding rfl fun _ _ hb => hb
  | connected hl => exact .of_sameTable (.setLoop s _) rfl rfl
  | @connectFail c fd hl =>
    rw [hl] at hloop
    obtain ⟨k, hk, -⟩ := hloop.opened
    refine .close hk (fun _ => Kernel.mem_epoll_close) rfl fun fd' hfd' => ?_
    refine ⟨hfd'.of_binding rfl fun _ _ hb => hb, ?_⟩
    rintro rfl
    obtain ⟨m, id, hb⟩ := hfd'.bound rfl rfl
    exact hloop.free m id hb
  | pushFd hl => exact .register hl rfl
  | @insert c fd hl =>
    rw [hl] at hloop
    refine .keep rfl rfl fun fd' hfd' => ?_
    obtain ⟨m, id, hb⟩ := hfd'.bound rfl rfl
    rw [State.binding_insertStream hloop.alive] at hb
    split at hb
    · exact Or.inr (hl ▸ hb)
    · exact Or.inl ⟨m, id, hb⟩
  | listIds hl => exact .of_sameTable (.setLoop s _) rfl rfl
  | @closeNext m id ids hl =>
    rw [hl] at hloop
    obtain ⟨fd, hb⟩ :=
      Option.ne_none_iff_exists'.mp ((hloop.2.2 id).mp (List.mem_cons_self ..))
    exact .of_closeStream hw hb rfl
  | @destruct m hl =>
    rw [hl] at hloop
    refine .keep rfl rfl fun fd' hfd' => hfd'.of_binding rfl fun m' id hb => ?_
    rwa [State.binding_destruct_of_closed hloop] at hb
  | @closeFound p m id hl =>
    rw [hl] at hloop
    exact .of_closeStream hw hloop rfl
  | decrement hl => exact .of_sameTable (.of_eq rfl rfl rfl rfl) rfl rfl
  | check hl =>
    refine .of_sameTable (.of_eq rfl rfl rfl rfl) rfl ?_
    rw [State.checkQueue]
    dsimp only
    split <;> rfl
  | sweepDone hl => exact .of_sameTable (.setLoop s _) rfl rfl
  | @sweep m ms hl =>
    have hsame : SameTable s { s.updateStreams env m with loop := .sweep ms } :=
      (SameTable.updateStreams s _).trans (.setLoop _ _)
    rw [State.updateStreams_frame] at hsame ⊢
    exact .of_sameTable hsame rfl rfl

/-- The frame of the other threads. -/
theorem Registration.of_loop {l : Label} (hkernel : t.kernel = s.kernel)
    (hbind : t.binding = s.binding) (hloop : t.loop = s.loop) : Registration s t l := by
  refine .keep (by rw [hkernel]) (by rw [hkernel]) fun fd hfd => ?_
  rwa [State.Attached, hbind, hloop] at hfd

/-- **What a step does to the registrations.** -/
theorem step_registration {l : Label} (hs : s.step env l = some t) (hw : WellBound s) :
    Registration s t l := by
  cases l with
  | loop l => exact (loopStep_cases hs).registration hw
  | watch l =>
    cases watchStep_cases hs with
    | erase hp => exact .erase hp rfl
    | _ => exact .of_loop rfl rfl rfl
  | worker l =>
    have hmove := workerStep_cases hs
    have hbind := hmove.sameTable.binding
    rw [hmove.frame] at hbind ⊢
    exact .of_loop rfl hbind rfl
  | rehash m streams =>
    obtain ⟨hsame, hframe⟩ := State.rehash_frame hs
    have hbind := hsame.binding
    rw [hframe] at hbind ⊢
    exact .of_loop rfl hbind rfl
  | rehashSockets ms =>
    obtain ⟨-, -, rfl⟩ := State.rehashSockets_frame hs
    exact .of_loop rfl rfl rfl

/-! ## What is heard -/

/-- A descriptor is registered, or a closure is to close the stream that has it. -/
def State.Heard (s : State) (fd : Fd) : Prop :=
  fd ∈ s.kernel.epoll ∨ ∃ p ∈ s.openPasses, p.fd = fd ∧ p.toClose = true

/-- All streams are heard. -/
structure AllHeard (s : State) : Prop where
  /-- what is to be registered is heard -/
  heard : ∀ fd, s.Attached fd → s.Heard fd
  /-- the watcher takes descriptors out for passes that are to close their stream -/
  erasing : ∀ p, s.watcher.phase = .erasing p → p.toClose = true

/-- The condition on a step: `epoll_ctl` registers a descriptor if it is asked to. -/
def Label.registers : Label → Bool
  | .loop (.pushFd ok) => ok
  | _ => true

namespace AllHeard

/-- The passes that are to close a stream are still there. -/
theorem of_passes (h : AllHeard s) (hphase : ∀ p, t.watcher.phase = .erasing p → p.toClose = true)
    (hopen : ∀ p ∈ s.openPasses, p.toClose = true → t.Attached p.fd →
      ∃ q ∈ t.openPasses, q.fd = p.fd ∧ q.toClose = true)
    (hattached : ∀ fd, t.Attached fd →
      t.Heard fd ∨ s.Attached fd ∧ (fd ∈ s.kernel.epoll → fd ∈ t.kernel.epoll)) :
    AllHeard t where
  heard fd hfd := by
    rcases hattached fd hfd with hheard | ⟨hold, hepoll⟩
    · exact hheard
    · rcases h.heard fd hold with hmem | ⟨p, hp, rfl, hc⟩
      · exact Or.inl (hepoll hmem)
      · exact Or.inr (hopen p hp hc hfd)
  erasing := hphase

/-- What the loop thread does to the registrations: it takes none from a stream that stays. -/
theorem attached_of_loop {l : LoopLabel} (hs : Registration s t (.loop l)) (hw : WellBound s)
    (hl : l ≠ .pushFd false) (hphase : t.watcher.phase = s.watcher.phase) (hfd : t.Attached fd) :
    t.Heard fd ∨ s.Attached fd ∧ (fd ∈ s.kernel.epoll → fd ∈ t.kernel.epoll) := by
  cases hs with
  | keep hepoll _ hsub => exact Or.inr ⟨hsub fd hfd, fun h => hepoll ▸ h⟩
  | socket _ hepoll _ hsub => exact Or.inr ⟨hsub fd hfd, fun h => hepoll ▸ h⟩
  | @register c fd' ok hloop heq =>
    subst heq
    cases ok with
    | false => exact absurd rfl hl
    | true =>
      have hopened : s.kernel.files fd' ≠ none := by
        have hconn := hw.loop
        rw [hloop] at hconn
        obtain ⟨k, hk, -⟩ := hconn.opened
        exact Kernel.files_of_sockAt hk
      rcases hfd with ⟨m, id, hb⟩ | hins
      · refine Or.inr ⟨Or.inl ⟨m, id, hb⟩, fun hmem => ?_⟩
        exact Kernel.mem_epoll_pushFd_of_mem hmem
      · obtain rfl := Option.some.inj hins
        exact Or.inl (Or.inl (Kernel.mem_epoll_pushFd_true hopened))
  | close _ hepoll _ hsub =>
    obtain ⟨hold, hne⟩ := hsub fd hfd
    exact Or.inr ⟨hold, fun hmem => (hepoll fd).mpr ⟨hmem, hne⟩⟩
  | erase hp heq =>
    rw [heq, hp] at hphase
    cases hphase

theorem loopMove {l : LoopLabel} (hs : LoopMove env s l t) (hw : WellBound s)
    (hl : l ≠ .pushFd false) (h : AllHeard s) : AllHeard t := by
  have hreg := hs.registration hw
  cases hs.closureMove hw with
  | quiet hq =>
    refine h.of_passes (fun p hp => h.erasing p (hq.phase ▸ hp)) (fun p hp hc _ => ?_)
      fun fd hfd => attached_of_loop hreg hw hl hq.phase hfd
    exact ⟨p, hq.openPasses.symm ▸ hp, rfl, hc⟩
  | @skip p rest hi hd hfree heq =>
    subst heq
    refine h.of_passes h.erasing (fun q hq hc hfd => ?_)
      fun fd hfd => attached_of_loop hreg hw hl rfl hfd
    have hq' : q ≠ p := by
      rintro rfl
      obtain ⟨m, id, hb⟩ := hfd.bound rfl rfl
      exact hfree m id hb
    rw [State.openPasses_of_loop hi, State.pendingPasses, hd] at hq
    refine ⟨q, ?_, rfl, hc⟩
    rw [State.openPasses_of_loop (s := s.skipDeferred rest) rfl]
    exact (List.mem_cons.mp hq).resolve_left hq'
  | @found p rest m id hi hd hb heq =>
    have hframe : s.runFound env p rest m id = { s with
        managers := (s.runFound env p rest m id).managers
        deferred := rest
        loop := if p.toClose then .closeFound p m id else .decrement
        log := (s.runFound env p rest m id).log } := State.runFound_frame
    rw [← heq] at hframe
    have hphase : t.watcher.phase = s.watcher.phase := by rw [hframe]
    refine h.of_passes (fun q hq => h.erasing q (hphase ▸ hq)) (fun q hq hc _ => ?_)
      fun fd hfd => attached_of_loop hreg hw hl hphase hfd
    refine ⟨q, ?_, rfl, hc⟩
    rw [State.openPasses_of_loop hi, State.pendingPasses, hd] at hq
    rw [State.openPasses, State.pendingPasses, hframe]
    rcases List.mem_cons.mp hq with rfl | hq
    · rw [hc]
      exact List.mem_append_left _ (List.mem_singleton_self q)
    · exact List.mem_append_right _ hq
  | @close p m id hloop hb heq =>
    subst heq
    refine h.of_passes h.erasing (fun q hq hc hfd => ?_)
      fun fd hfd => attached_of_loop hreg hw hl rfl hfd
    -- the stream of this closure is gone
    have hq' : q ≠ p := by
      rintro rfl
      obtain ⟨m', id', hb'⟩ := hfd.bound rfl rfl
      have hb' : (s.closeStream env m id false _).binding m' id' = some q.fd := hb'
      rw [State.binding_closeStream] at hb'
      split at hb'
      · cases hb'
      · rename_i hne
        exact hne (hw.table.unique hb' hb)
    rw [State.openPasses_of_loop hloop] at hq
    refine ⟨q, ?_, rfl, hc⟩
    rw [State.openPasses_of_loop (s := s.closeFound env p m id) rfl]
    exact (List.mem_cons.mp hq).resolve_left hq'

theorem watchMove (hs : WatchMove env s t) (h : AllHeard s) : AllHeard t := by
  have hattached : t.Attached = s.Attached := by
    funext fd
    rw [State.Attached, State.Attached, hs.sameTable.binding, hs.loop]
  have hsame : t.kernel = s.kernel → ∀ fd, t.Attached fd →
      t.Heard fd ∨ s.Attached fd ∧ (fd ∈ s.kernel.epoll → fd ∈ t.kernel.epoll) :=
    fun hk fd hfd => Or.inr ⟨hattached ▸ hfd, fun hmem => hk ▸ hmem⟩
  have hloop : t.loop.pass?.toList = s.loop.pass?.toList := by rw [hs.loop]
  have hopen : ∀ p ∈ s.openPasses, p.toClose = true → t.Attached p.fd →
      ∃ q ∈ t.openPasses, q.fd = p.fd ∧ q.toClose = true := by
    intro p hp hc _
    rw [State.openPasses] at hp ⊢
    rw [hloop]
    rcases List.mem_append.mp hp with hp | hp
    · exact ⟨p, List.mem_append_left _ hp, rfl, hc⟩
    · cases hs.passMove with
      | keep hpend => exact ⟨p, List.mem_append_right _ (hpend ▸ hp), rfl, hc⟩
      | start hpend =>
        rw [hpend]
        exact ⟨p, List.mem_append_right _ (List.mem_append_left _ hp), rfl, hc⟩
      | @read q r _ hpend hpend' =>
        rw [hpend] at hp
        rw [hpend']
        rcases List.mem_append.mp hp with hp | hp
        · exact ⟨p, List.mem_append_right _ (List.mem_append_left _ hp), rfl, hc⟩
        · obtain rfl := List.mem_singleton.mp hp
          refine ⟨p.read r, List.mem_append_right _ (List.mem_append_right _ ?_), rfl, ?_⟩
          · exact List.mem_singleton_self _
          · change (p.toClose || _) = true
            rw [hc, Bool.true_or]
  cases hs with
  | wait => exact h.of_passes (fun _ hp => by cases hp) hopen (hsame rfl)
  | done => exact h.of_passes (fun _ hp => by cases hp) hopen (hsame rfl)
  | skip hp => exact h.of_passes (fun p hp' => h.erasing p hp') hopen (hsame rfl)
  | start => exact h.of_passes (fun _ hp => by cases hp) hopen (hsame rfl)
  | @read p result hp hr =>
    refine h.of_passes (fun q hq => ?_) hopen (hsame rfl)
    -- only a read that closes is followed by the erasure
    have hq : State.afterRead (p.read ⟨s.kernel.sockAt p.fd, result⟩) result = .erasing q := hq
    cases result with
    | bytes buf =>
      rw [State.afterRead] at hq
      split at hq <;> cases hq
    | again => cases hq
    | eof =>
      obtain rfl := WatcherPhase.erasing.inj hq
      exact Bool.or_true _
    | error =>
      obtain rfl := WatcherPhase.erasing.inj hq
      exact Bool.or_true _
  | @erase p hp =>
    refine h.of_passes (fun _ hp => by cases hp) hopen fun fd hfd => ?_
    by_cases he : fd = p.fd
    · refine Or.inl (Or.inr ⟨p, ?_, he.symm, h.erasing p hp⟩)
      exact List.mem_append_right _ (List.mem_append_right _ (List.mem_singleton_self p))
    · exact Or.inr ⟨hfd, fun hmem => Kernel.mem_epoll_eraseFd.mpr ⟨hmem, he⟩⟩
  | count => exact h.of_passes (fun _ hp => by cases hp) hopen (hsame rfl)
  | defer => exact h.of_passes (fun _ hp => by cases hp) hopen (hsame rfl)

theorem step {l : Label} (hs : s.step env l = some t) (hw : WellBound s)
    (hl : l.registers = true) (h : AllHeard s) : AllHeard t := by
  have hother : t.loop = s.loop → t.kernel = s.kernel → t.binding = s.binding →
      t.watcher.phase = s.watcher.phase → t.deferred = s.deferred → AllHeard t := by
    intro hloop hkernel hbind hphase hdeferred
    refine h.of_passes (fun p hp => h.erasing p (hphase ▸ hp)) (fun p hp hc _ => ?_)
      fun fd hfd => Or.inr ⟨?_, fun hmem => hkernel ▸ hmem⟩
    · refine ⟨p, ?_, rfl, hc⟩
      rwa [State.openPasses, State.pendingPasses, hloop, hdeferred, hphase]
    · rwa [State.Attached, hbind, hloop] at hfd
  cases l with
  | loop l =>
    refine h.loopMove (loopStep_cases hs) hw ?_
    rintro rfl
    cases hl
  | watch l => exact h.watchMove (watchStep_cases hs)
  | worker l =>
    have hmove := workerStep_cases hs
    have hbind := hmove.sameTable.binding
    rw [hmove.frame] at hbind hother ⊢
    exact hother rfl rfl hbind rfl rfl
  | rehash m streams =>
    obtain ⟨hsame, hframe⟩ := State.rehash_frame hs
    have hbind := hsame.binding
    rw [hframe] at hbind hother ⊢
    exact hother rfl rfl hbind rfl rfl
  | rehashSockets ms =>
    obtain ⟨-, -, rfl⟩ := State.rehashSockets_frame hs
    exact hother rfl rfl rfl rfl rfl

theorem initial (env : Env) : AllHeard (State.initial env) where
  heard fd h := by
    rcases h with ⟨m, id, hb⟩ | hins
    · cases hb
    · cases hins
  erasing p h := by cases h

end AllHeard

/-- **No stream goes unheard**, in runs in which the kernel registers what it is asked to
register: the descriptor of every stream is in the interest list, or a pass is on its way whose
closure closes the stream that has this descriptor. -/
theorem streams_heard (h : (server env).Reaches (fun _ l => l.registers = true) s) {m : Nat}
    {id : UInt32} {d : SocketStreamData} (hd : s.stream m id = some d) :
    d.fd ∈ s.kernel.epoll ∨ ∃ p ∈ s.openPasses, p.fd = d.fd ∧ p.toClose = true := by
  have hall : AllHeard s :=
    h.invariant_of (fun _ => WellBound.of_reaches) (.initial env)
      fun _ _ _ hl hst hw hI => hI.step hst hw hl
  exact hall.heard d.fd (Or.inl ⟨m, id, State.binding_eq_some.mpr ⟨d, hd, rfl⟩⟩)

/-- A target that closes at once: its descriptor is registered, read and taken out before its
stream is stored. -/
def closedAtOnce : List Label :=
  [.loop .opened] ++ (connectLabels 0 1 7).take 4 ++ passLabels 7 [.eof] ++ [.loop .resume]

theorem streams_heard_closedAtOnce :
    (7 : Fd) ∈ ((server {}).final (fun _ l => l.registers = true) closedAtOnce).kernel.epoll ∨
      ∃ p ∈ ((server {}).final (fun _ l => l.registers = true) closedAtOnce).openPasses,
        p.fd = 7 ∧ p.toClose = true :=
  @streams_heard _ _ (System.reaches_final (server {}) _ closedAtOnce (by decide +kernel)) 0 1
    ⟨0x01, 1, 7, bufferCount⟩ (by decide +kernel)

end Woeful
