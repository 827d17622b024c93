import Woeful.Lib.Progress
import Woeful.Lib.Refinement
import Woeful.Registrations
import Woeful.WakePipe
import Woeful.WatcherWork

/-!
# Waking the watcher

The pipe can be in the way of its writers, and of its reader. The watcher never waits for a byte
that does not come: `epoll.wait` reported one, and nobody else takes it. A handler that
finds the pipe full waits, but not for long: the watcher takes something out of it when the
pipe is among its events, and no `epoll.wait` waits until then (`wake_returns`).
`~SystemWatcher` sets the flag first, and the watcher that sees it takes nothing out any more;
one that did not see it is in `epoll.wait`, and the byte of the destructor gets it out of there.
So the destructor comes to its end unless the pipe is full (`shutdown_ends`), and it needs no
event of a socket for that.
-/

namespace Woeful

open Memory Transition

variable {env : Env} {capacity : Nat} {s t : State} {w v : WatcherState}

/-! ## The descriptor of the pipe -/

/-- The read end of the pipe is open and registered, and no pass takes it for a socket. -/
structure PipeOpen (env : Env) (s : State) : Prop where
  /-- the descriptor is that of the pipe -/
  file : s.kernel.files env.pipes0 = some .pipe
  /-- it is registered -/
  registered : env.pipes0 ∈ s.kernel.epoll
  /-- the watcher reads it in no pass -/
  pass : ∀ p, s.watcher.phase.pass? = some p → p.fd ≠ env.pipes0

namespace PipeOpen

/-- The pass the watcher is in is the same, or another one for an event. -/
theorem pass_step {l : Label} (hs : s.step env l = some t) (hw : WellBound s)
    (h : PipeOpen env s) : ∀ p, t.watcher.phase.pass? = some p → p.fd ≠ env.pipes0 := by
  by_cases hl : ∃ l', l = .watch l'
  · obtain ⟨l, rfl⟩ := hl
    intro p hp
    cases watchStep_cases hs with
    | wait => cases hp
    | done => cases hp
    | skip => exact h.pass p hp
    | start _ _ hne =>
      obtain rfl := Option.some.inj hp
      exact hne
    | @read q result hphase =>
      have hpass := State.pass?_afterRead (q.read ⟨s.kernel.sockAt q.fd, result⟩) result
      have hq := hpass.symm.trans hp
      obtain rfl := Option.some.inj hq
      exact h.pass q (hphase ▸ rfl)
    | erase hphase =>
      obtain rfl := Option.some.inj hp
      exact h.pass _ (hphase ▸ rfl)
    | count hphase =>
      obtain rfl := Option.some.inj hp
      exact h.pass _ (hphase ▸ rfl)
    | defer => cases hp
  · rw [(watcher_still hs hw fun l' heq => hl ⟨l', heq⟩).1]
    exact h.pass

theorem step {l : Label} (hs : s.step env l = some t) (hw : WellBound s) (h : PipeOpen env s) :
    PipeOpen env t := by
  have hpass := pass_step hs hw h
  cases step_registration hs hw with
  | keep hepoll hfiles =>
    exact ⟨by rw [hfiles, h.file], by rw [hepoll]; exact h.registered, hpass⟩
  | socket hnone hepoll hfiles =>
    refine ⟨?_, by rw [hepoll]; exact h.registered, hpass⟩
    rw [hfiles, Function.update_of_ne, h.file]
    rintro rfl
    rw [h.file] at hnone
    cases hnone
  | register _ heq =>
    subst heq
    exact ⟨(congrFun Kernel.files_pushFd _).trans h.file,
      Kernel.mem_epoll_pushFd_of_mem h.registered, hpass⟩
  | @close _ fd k hsock hepoll hfiles =>
    have hne : env.pipes0 ≠ fd := by
      rintro rfl
      rw [Kernel.sockAt_eq_some, h.file] at hsock
      cases hsock
    refine ⟨?_, (hepoll _).mpr ⟨h.registered, hne⟩, hpass⟩
    rw [hfiles, Function.update_of_ne hne, h.file]
  | @erase _ p hphase heq =>
    subst heq
    have hne : p.fd ≠ env.pipes0 := h.pass p (by rw [hphase]; rfl)
    exact ⟨h.file, Kernel.mem_epoll_eraseFd.mpr ⟨h.registered, hne.symm⟩, hpass⟩

theorem initial (env : Env) : PipeOpen env (State.initial env) where
  file := by simp [State.initial, Kernel.initial]
  registered := List.mem_singleton_self _
  pass := nofun

theorem of_reaches (h : (server env).Reachable s) : PipeOpen env s :=
  h.invariant_of (fun _ => WellBound.of_reaches) (.initial env)
    fun _ _ _ _ hst hw hI => hI.step hst hw

end PipeOpen

/-! ## What a step does -/

/-- What a step does. -/
inductive WakeMove (env : Env) (capacity : Nat) (w : WatcherState) :
    WatcherLabel → WatcherState → Prop where
  /-- the loop thread moves -/
  | loop {l : LoopLabel} {server : State} : w.main = .serving →
      w.server.step env (.loop l) = some server →
      WakeMove env capacity w (.server (.loop l))
        { w with server := server, main := w.server.mainAfter l }
  /-- `epoll.wait` returned -/
  | wait {events : List Fd} {server : State} : w.looked = true →
      (env.pipes0 ∈ events → 0 < w.pipe) →
      w.server.step env (.watch (.wait events)) = some server →
      WakeMove env capacity w (.server (.watch (.wait events)))
        { w with server := server, looked := false }
  /-- the watcher reads the pipe -/
  | read {events : List Fd} : 0 < w.pipe → w.server.watcher.phase = .next →
      w.server.watcher.events = env.pipes0 :: events →
      WakeMove env capacity w (.server (.watch .next))
        { w with
          server := { w.server with watcher := { w.server.watcher with events := events } }
          pipe := w.pipe - min w.pipe 10 }
  /-- the watcher goes on otherwise -/
  | watch {l : WatchLabel} {server : State} : w.server.watcher.phase ≠ .wait →
      (w.server.watcher.phase = .next → w.server.watcher.events.head? ≠ some env.pipes0) →
      w.server.step env (.watch l) = some server →
      WakeMove env capacity w (.server (.watch l)) { w with server := server }
  /-- another thread moves -/
  | other {l : Label} {server : State} : (∀ l', l ≠ .watch l') →
      w.server.step env l = some server →
      WakeMove env capacity w (.server l) { w with server := server }
  /-- the watcher finds the flag set -/
  | leave : w.looked = false → w.returned = false → w.server.watcher.phase = .wait →
      w.deconstructing = true →
      WakeMove env capacity w .look { w with returned := true }
  /-- the watcher does not find it set -/
  | look : w.looked = false → w.returned = false → w.server.watcher.phase = .wait →
      w.deconstructing = false → WakeMove env capacity w .look { w with looked := true }
  /-- the handler is done -/
  | handled {lock : Option Nat} : w.pipe + 2 ≤ capacity → w.main = .waking lock →
      WakeMove env capacity w .wake { w with pipe := w.pipe + 2, main := .serving }
  /-- `~SystemWatcher` is about to join -/
  | woken : w.pipe + 2 ≤ capacity → w.main = .destroying →
      WakeMove env capacity w .wake { w with pipe := w.pipe + 2, main := .joining }
  /-- `~SystemWatcher` is called -/
  | destroy : w.main = .serving →
      WakeMove env capacity w .destroy { w with deconstructing := true, main := .destroying }
  /-- it is done -/
  | join : w.main = .joining → w.returned = true →
      WakeMove env capacity w .join { w with main := .joined }

/-- The next event. -/
theorem wakeNext_cases (h : w.next env = some v) :
    WakeMove env capacity w (.server (.watch .next)) v := by
  rw [WatcherState.next] at h
  split at h
  · rename_i hg
    obtain ⟨hphase, hhead⟩ := hg
    obtain ⟨events, hevents⟩ := List.head?_eq_some_iff.mp hhead
    rw [Option.ite_none_right_eq_some, State.watchNext, hphase, hevents] at h
    obtain ⟨hpipe, h⟩ := h
    dsimp only at h
    rw [if_pos rfl] at h
    obtain rfl := Option.some.inj h
    exact .read hpipe hphase hevents
  · rename_i hg
    obtain ⟨server, hst, rfl⟩ := Option.map_eq_some_iff.mp h
    refine .watch (fun hphase => ?_) (fun hphase hhead => hg ⟨hphase, hhead⟩) hst
    obtain ⟨events, hl⟩ := (State.watchStep_label (l := .next) hst).1 hphase
    cases hl

/-- **What a step does.** -/
theorem wakeStep_cases {l : WatcherLabel} (h : w.step env capacity l = some v) :
    WakeMove env capacity w l v := by
  cases l with
  | server l =>
    cases l with
    | loop l =>
      have h' : w.loopStep env l = some v := h
      rw [WatcherState.loopStep, Option.ite_none_right_eq_some] at h'
      obtain ⟨hmain, h'⟩ := h'
      obtain ⟨server, hst, rfl⟩ := Option.map_eq_some_iff.mp h'
      exact .loop hmain hst
    | watch l =>
      cases l with
      | wait events =>
        have h' : w.wait env events = some v := h
        rw [WatcherState.wait, Option.ite_none_right_eq_some] at h'
        obtain ⟨⟨hlooked, hpipe⟩, h'⟩ := h'
        obtain ⟨server, hst, rfl⟩ := Option.map_eq_some_iff.mp h'
        exact .wait hlooked hpipe hst
      | next => exact wakeNext_cases h
      | _ =>
        obtain ⟨server, hst, rfl⟩ := Option.map_eq_some_iff.mp h
        refine .watch (fun hphase => ?_) (fun hphase => ?_) hst
        · obtain ⟨events, hl⟩ := (State.watchStep_label hst).1 hphase
          cases hl
        · cases (State.watchStep_label hst).2 hphase
    | worker l =>
      have h' : w.workerStep env l = some v := h
      rw [WatcherState.workerStep, Option.ite_none_left_eq_some] at h'
      obtain ⟨server, hst, rfl⟩ := Option.map_eq_some_iff.mp h'.2
      exact .other nofun hst
    | _ =>
      obtain ⟨server, hst, rfl⟩ := Option.map_eq_some_iff.mp (Option.ite_none_right_eq_some.mp h).2
      exact .other nofun hst
  | look =>
    have h' : w.look = some v := h
    rw [WatcherState.look, Option.ite_none_right_eq_some] at h'
    obtain ⟨⟨hphase, hlooked, hreturned⟩, h'⟩ := h'
    split at h'
    · rename_i hflag
      obtain rfl := Option.some.inj h'
      exact .leave hlooked hreturned hphase hflag
    · rename_i hflag
      obtain rfl := Option.some.inj h'
      exact .look hlooked hreturned hphase (Bool.eq_false_iff.mpr hflag)
  | wake =>
    have h' : w.wake capacity = some v := h
    rw [WatcherState.wake, Option.ite_none_right_eq_some] at h'
    obtain ⟨hroom, h'⟩ := h'
    split at h'
    · rename_i hmain
      obtain rfl := Option.some.inj h'
      exact .handled hroom hmain
    · rename_i hmain
      obtain rfl := Option.some.inj h'
      exact .woken hroom hmain
    · cases h'
  | destroy =>
    have h' : w.destroy = some v := h
    rw [WatcherState.destroy, Option.ite_none_right_eq_some] at h'
    obtain ⟨⟨hmain, -⟩, h'⟩ := h'
    obtain rfl := Option.some.inj h'
    exact .destroy hmain
  | join =>
    have h' : w.join = some v := h
    rw [WatcherState.join, Option.ite_none_right_eq_some] at h'
    obtain ⟨⟨hmain, hreturned⟩, h'⟩ := h'
    obtain rfl := Option.some.inj h'
    exact .join hmain hreturned

/-! ## What holds of the pipe -/

/-- The main thread is in `~SystemWatcher`. -/
def MainPhase.stopping : MainPhase → Bool
  | serving => false
  | waking _ => false
  | _ => true

/-- A handler is not the destructor. -/
theorem State.stopping_mainAfter (l : LoopLabel) : (s.mainAfter l).stopping = false := by
  cases l with
  | resume =>
    rw [State.mainAfter]
    split <;> rfl
  | _ => rfl

/-- The pipe, the flag and the two threads agree. -/
structure Piped (env : Env) (capacity : Nat) (w : WatcherState) : Prop where
  /-- the pipe takes what it has room for -/
  room : w.pipe ≤ capacity
  /-- what was reported is still there -/
  ready : env.pipes0 ∈ w.server.watcher.events → 0 < w.pipe
  /-- it was reported once -/
  nodup : w.server.watcher.events.Nodup
  /-- before `epoll.wait` all events are done -/
  idle : w.server.watcher.phase = .wait → w.server.watcher.events = []
  /-- the flag is set by `~SystemWatcher` -/
  flag : w.deconstructing = w.main.stopping
  /-- the flag is tested before `epoll.wait` -/
  looked : w.looked = true → w.server.watcher.phase = .wait ∧ w.returned = false
  /-- the watcher returns when it is set -/
  returned : w.returned = true → w.server.watcher.phase = .wait ∧ w.deconstructing = true
  /-- a watcher that did not find it set is woken -/
  woken : w.main = .joining → w.looked = true → 0 < w.pipe
  /-- it is joined when it has returned -/
  joined : w.main = .joined → w.returned = true

namespace Piped

/-- The watcher moves, and the pipe is the same. -/
theorem watch {l : WatchLabel} {server : State} (hwait : w.server.watcher.phase ≠ .wait)
    (hnext : w.server.watcher.phase = .next → w.server.watcher.events.head? ≠ some env.pipes0)
    (hs : w.server.step env (.watch l) = some server) (h : Piped env capacity w) :
    Piped env capacity { w with server := server } := by
  have hlooked : ¬w.looked = true := fun hl => hwait (h.looked hl).1
  have hreturned : ¬w.returned = true := fun hr => hwait (h.returned hr).1
  have hevents : server.watcher.events.Sublist w.server.watcher.events ∧
      (server.watcher.phase = .wait → server.watcher.events = []) := by
    cases watchStep_cases hs with
    | wait hphase => exact absurd hphase hwait
    | done _ hnil => exact ⟨.refl _, fun _ => hnil⟩
    | skip hphase hhead => exact absurd (by rw [hhead]; rfl) (hnext hphase)
    | start _ hhead => exact ⟨hhead ▸ List.sublist_cons_self .., nofun⟩
    | @read p result =>
      refine ⟨.refl _, fun hphase => ?_⟩
      have hpass := State.pass?_afterRead (p.read ⟨w.server.kernel.sockAt p.fd, result⟩) result
      have hafter : State.afterRead (p.read ⟨w.server.kernel.sockAt p.fd, result⟩) result = .wait :=
        hphase
      rw [hafter] at hpass
      cases hpass
    | erase => exact ⟨.refl _, nofun⟩
    | count => exact ⟨.refl _, nofun⟩
    | defer => exact ⟨.refl _, nofun⟩
  exact {
    room := h.room
    ready := fun hmem => h.ready (hevents.1.subset hmem)
    nodup := hevents.1.nodup h.nodup
    idle := hevents.2
    flag := h.flag
    looked := fun hl => absurd hl hlooked
    returned := fun hr => absurd hr hreturned
    woken := fun _ hl => absurd hl hlooked
    joined := h.joined }

/-- The watcher does not move. -/
theorem of_still {w' : WatcherState} (h : Piped env capacity w)
    (hwatcher : w'.server.watcher.phase = w.server.watcher.phase ∧
      w'.server.watcher.events = w.server.watcher.events)
    (hroom : w'.pipe ≤ capacity) (hpipe : w.pipe ≤ w'.pipe)
    (hflag : w'.deconstructing = w'.main.stopping)
    (hset : w.deconstructing = true → w'.deconstructing = true)
    (hlooked : w'.looked = true → w'.server.watcher.phase = .wait ∧ w'.returned = false)
    (hreturned : w'.returned = true →
      w.returned = true ∨ w'.server.watcher.phase = .wait ∧ w'.deconstructing = true)
    (hwoken : w'.main = .joining → w'.looked = true → 0 < w'.pipe)
    (hjoined : w'.main = .joined → w'.returned = true) : Piped env capacity w' where
  room := hroom
  ready hmem := (h.ready (hwatcher.2 ▸ hmem)).trans_le hpipe
  nodup := hwatcher.2.symm ▸ h.nodup
  idle hphase := hwatcher.2.trans (h.idle (hwatcher.1 ▸ hphase))
  flag := hflag
  looked := hlooked
  returned hr := by
    rcases hreturned hr with hold | hnew
    · exact ⟨hwatcher.1.trans (h.returned hold).1, hset (h.returned hold).2⟩
    · exact hnew
  woken := hwoken
  joined := hjoined

theorem step {l : WatcherLabel} (hs : w.step env capacity l = some v) (hw : WellBound w.server)
    (h : Piped env capacity w) : Piped env capacity v := by
  cases wakeStep_cases hs with
  | @loop l server hmain hst =>
    have hstill := watcher_still hst hw nofun
    have hafter := State.stopping_mainAfter (s := w.server) l
    have hunset : w.deconstructing = false := h.flag.trans (congrArg MainPhase.stopping hmain)
    refine h.of_still hstill h.room le_rfl (hunset.trans hafter.symm) id (fun hl => ?_) Or.inl
      (fun hj => ?_) (fun hj => ?_)
    · exact ⟨hstill.1.trans (h.looked hl).1, (h.looked hl).2⟩
    · exact absurd ((congrArg MainPhase.stopping hj).symm.trans hafter) nofun
    · exact absurd ((congrArg MainPhase.stopping hj).symm.trans hafter) nofun
  | @wait events server hlooked hpipe hst =>
    obtain ⟨⟨-, hnodup, -⟩, hst⟩ := Option.ite_none_right_eq_some.mp hst
    obtain rfl := Option.some.inj hst
    have hreturned : ¬w.returned = true := by
      rw [(h.looked hlooked).2]
      exact nofun
    exact {
      room := h.room
      ready := hpipe
      nodup := hnodup
      idle := nofun
      flag := h.flag
      looked := nofun
      returned := fun hr => absurd hr hreturned
      woken := nofun
      joined := h.joined }
  | @read events hpipe hphase hevents =>
    have hnodup := h.nodup
    rw [hevents, List.nodup_cons] at hnodup
    exact {
      room := (Nat.sub_le ..).trans h.room
      -- the pipe was reported once, so its next byte is not awaited yet
      ready := fun hmem => absurd hmem hnodup.1
      nodup := hnodup.2
      idle := fun hwait => nomatch hphase.symm.trans hwait
      flag := h.flag
      looked := fun hl => nomatch hphase.symm.trans (h.looked hl).1
      returned := h.returned
      woken := fun _ hl => nomatch hphase.symm.trans (h.looked hl).1
      joined := h.joined }
  | watch hwait hnext hst => exact h.watch hwait hnext hst
  | @other l server hl hst =>
    have hstill := watcher_still hst hw hl
    exact h.of_still hstill h.room le_rfl h.flag id
      (fun hl => ⟨hstill.1.trans (h.looked hl).1, (h.looked hl).2⟩) Or.inl h.woken h.joined
  | leave hlooked _ hphase hflag =>
    refine h.of_still ⟨rfl, rfl⟩ h.room le_rfl h.flag id (fun hl => ?_)
      (fun _ => Or.inr ⟨hphase, hflag⟩) h.woken fun _ => rfl
    exact absurd (hlooked.symm.trans hl) nofun
  | look _ hreturned hphase hflag =>
    refine h.of_still ⟨rfl, rfl⟩ h.room le_rfl h.flag id (fun _ => ⟨hphase, hreturned⟩) Or.inl
      (fun hj _ => ?_) h.joined
    -- `~SystemWatcher` sets the flag before it comes here
    have hset : w.deconstructing = true := h.flag.trans (congrArg MainPhase.stopping hj)
    exact absurd (hflag.symm.trans hset) nofun
  | handled hroom hmain =>
    have hunset : w.deconstructing = false := h.flag.trans (congrArg MainPhase.stopping hmain)
    exact h.of_still ⟨rfl, rfl⟩ hroom (Nat.le_add_right ..) hunset id h.looked Or.inl nofun nofun
  | woken hroom hmain =>
    have hset : w.deconstructing = true := h.flag.trans (congrArg MainPhase.stopping hmain)
    exact h.of_still ⟨rfl, rfl⟩ hroom (Nat.le_add_right ..) hset id h.looked Or.inl
      (fun _ _ => Nat.succ_pos _) nofun
  | destroy hmain =>
    exact h.of_still ⟨rfl, rfl⟩ h.room le_rfl rfl (fun _ => rfl) h.looked Or.inl nofun nofun
  | join hmain hreturned =>
    have hset : w.deconstructing = true := h.flag.trans (congrArg MainPhase.stopping hmain)
    exact h.of_still ⟨rfl, rfl⟩ h.room le_rfl hset id h.looked Or.inl nofun fun _ => hreturned

theorem initial (env : Env) (capacity : Nat) : Piped env capacity (watched env capacity).init where
  room := Nat.zero_le _
  ready := nofun
  nodup := List.nodup_nil
  idle _ := rfl
  flag := rfl
  looked := nofun
  returned := nofun
  woken := nofun
  joined := nofun

end Piped

/-! ## The server in it -/

/-- What a step is to the server. -/
def WatcherLabel.visible : WatcherLabel → List Label
  | server l => [l]
  | _ => []

/-- A step is one of the server, or not seen. -/
theorem wakeStep_server {l : WatcherLabel} (hs : w.step env capacity l = some v) :
    (server env).Run (fun _ _ => True) w.server l.visible v.server := by
  cases wakeStep_cases hs with
  | loop _ hst => exact .single trivial hst
  | wait _ _ hst => exact .single trivial hst
  | read _ hphase hevents =>
    refine .single trivial ?_
    change w.server.watchNext env = _
    rw [State.watchNext, hphase, hevents]
    exact if_pos rfl
  | watch _ _ hst => exact .single trivial hst
  | other _ hst => exact .single trivial hst
  | _ => exact .nil _

/-- The server of a state that is reached is in a state that it reaches. -/
theorem server_reachable (h : (watched env capacity).Reachable w) :
    (server env).Reachable w.server := by
  obtain ⟨ls, hrun⟩ := h
  have hserver : (server env).Run (fun _ _ => True)
      (WatcherState.server (watched env capacity).init)
      (ls.flatMap WatcherLabel.visible) w.server :=
    hrun.refines (I := fun _ => True) (fun _ _ _ _ _ _ => trivial)
      (fun _ _ _ _ hs _ => wakeStep_server hs) trivial
  exact ⟨_, hserver⟩

theorem Piped.of_reaches (h : (watched env capacity).Reachable w) : Piped env capacity w :=
  h.invariant_of (fun _ hr => WellBound.of_reaches (server_reachable hr)) (.initial env capacity)
    fun _ _ _ _ hst hw hI => hI.step hst hw

/-! ## The watcher goes on -/

namespace WatcherLabel

/-- The steps of the watcher. -/
def isWatch : WatcherLabel → Bool
  | server (.watch _) => true
  | look => true
  | _ => false

/-- The steps of the watcher, and of who wakes it. -/
def own : WatcherLabel → Bool
  | server (.watch _) => true
  | server _ => false
  | _ => true

theorem own_of_isWatch {l : WatcherLabel} (h : l.isWatch = true) : l.own = true := by
  cases l with
  | server l => cases l <;> first | rfl | cases h
  | look => rfl
  | _ => cases h

variable (env) in
/-- `epoll.wait` returns without the pipe: for sockets only, or for nothing. -/
def omits : WatcherLabel → Bool
  | server (.watch (.wait events)) => env.pipes0 ∉ events
  | _ => false

end WatcherLabel

/-- **The watcher is never stuck**: it can go on without any socket, unless it is in `epoll.wait`
and the pipe is empty. In particular it never waits for a byte in the pipe. -/
theorem Piped.exists_watch (h : Piped env capacity w) (ho : PipeOpen env w.server)
    (hr : w.returned = false) (hp : w.looked = true → 0 < w.pipe) :
    ∃ l : WatcherLabel, l.isWatch = true ∧ l.omits env = false ∧
      w.step env capacity l ≠ none := by
  by_cases hphase : w.server.watcher.phase = .wait
  · cases hl : w.looked with
    | false =>
      refine ⟨.look, rfl, rfl, ?_⟩
      change w.look ≠ none
      rw [WatcherState.look, if_pos ⟨hphase, hl, hr⟩]
      exact Option.some_ne_none _
    | true =>
      refine ⟨.server (.watch (.wait [env.pipes0])), rfl, ?_, ?_⟩
      · simp [WatcherLabel.omits]
      · have hopen : ∀ fd ∈ [env.pipes0], fd ∈ w.server.kernel.epoll := by
          intro fd hfd
          obtain rfl := List.mem_singleton.mp hfd
          exact ho.registered
        change w.wait env [env.pipes0] ≠ none
        rw [WatcherState.wait, if_pos ⟨hl, fun _ => hp hl⟩, State.watchWait,
          if_pos ⟨hphase, List.nodup_singleton _, Nat.succ_le_of_lt (by decide), hopen⟩]
        exact Option.some_ne_none _
  · obtain ⟨l, hl, hne⟩ := @State.watchStep_possible env _ hphase
    have hmap : ∀ f : State → WatcherState, (w.server.watchStep env l).map f ≠ none :=
      fun f heq => hne (Option.map_eq_none_iff.mp heq)
    cases l with
    | wait events => exact absurd rfl (hl events)
    | next =>
      refine ⟨.server (.watch .next), rfl, rfl, ?_⟩
      change w.next env ≠ none
      rw [WatcherState.next]
      split
      · -- the pipe has been reported
        rename_i hg
        rw [if_pos (h.ready (List.mem_of_head? hg.2))]
        exact hmap _
      · exact hmap _
    | read result => exact ⟨.server (.watch (.read result)), rfl, rfl, hmap _⟩
    | erase => exact ⟨.server (.watch .erase), rfl, rfl, hmap _⟩
    | count => exact ⟨.server (.watch .count), rfl, rfl, hmap _⟩
    | defer => exact ⟨.server (.watch .defer), rfl, rfl, hmap _⟩

/-! ## The destructor -/

/-- Once the flag is set the main thread is in `~SystemWatcher`, and in no handler. -/
theorem Piped.not_serving (h : Piped env capacity w) (hflag : w.deconstructing = true) :
    w.main ≠ .serving ∧ ∀ lock, w.main ≠ .waking lock := by
  have hstopping : w.main.stopping = true := h.flag.symm.trans hflag
  constructor
  · intro hmain
    rw [hmain] at hstopping
    cases hstopping
  · intro lock hmain
    rw [hmain] at hstopping
    cases hstopping

/-- What `~SystemWatcher` has to do. -/
def MainPhase.work : MainPhase → Nat
  | destroying => 2
  | joining => 1
  | _ => 0

/-- What is left to do once the flag is set: a watcher in `epoll.wait` may yet come back with
events. -/
def WatcherState.work (w : WatcherState) : Nat :=
  w.main.work +
    if w.returned then 0
    else if w.looked then roundWork
    else w.server.watcher.work

/-- Every step of the two threads leaves less. -/
theorem WatcherState.work_lt {l : WatcherLabel} (hs : w.step env capacity l = some v)
    (h : Piped env capacity w) (hflag : w.deconstructing = true) (hl : l.own = true) :
    v.work < w.work := by
  have hmain := h.not_serving hflag
  have hbusy : w.server.watcher.phase ≠ .wait → w.looked = false ∧ w.returned = false := by
    intro hphase
    exact ⟨Bool.eq_false_iff.mpr fun hlooked => hphase (h.looked hlooked).1,
      Bool.eq_false_iff.mpr fun hr => hphase (h.returned hr).1⟩
  cases wakeStep_cases hs with
  | loop => cases hl
  | wait hlooked _ hst =>
    have hwork := (work_wait hst).2
    simp only [WatcherState.work, (h.looked hlooked).2, hlooked, Bool.false_eq_true, if_false,
      if_true]
    omega
  | @read events _ hphase hevents =>
    obtain ⟨hlooked, hr⟩ := hbusy (by rw [hphase]; exact nofun)
    have hlt := (@WatchMove.skip env _ _ hphase hevents).work_lt (by rw [hphase]; exact nofun)
    simp only [WatcherState.work, hlooked, hr, Bool.false_eq_true, if_false]
    exact Nat.add_lt_add_left hlt _
  | watch hwait _ hst =>
    obtain ⟨hlooked, hr⟩ := hbusy hwait
    have hlt := (watchStep_cases hst).work_lt hwait
    simp only [WatcherState.work, hlooked, hr, Bool.false_eq_true, if_false]
    omega
  | @other l server hne =>
    cases l with
    | watch l => exact absurd rfl (hne l)
    | _ => cases hl
  | leave hlooked hr hphase =>
    have hpos := SystemWatcher.work_pos hphase
    simp only [WatcherState.work, hlooked, hr, Bool.false_eq_true, if_false, if_true]
    omega
  | look _ _ _ hunset => exact absurd (hunset.symm.trans hflag) nofun
  | handled _ hwaking => exact absurd hwaking (hmain.2 _)
  | woken _ hdestroying =>
    simp only [WatcherState.work, hdestroying, MainPhase.work]
    omega
  | destroy hserving => exact absurd hserving hmain.1
  | join hjoining hr =>
    simp only [WatcherState.work, hjoining, hr, MainPhase.work]
    omega

/-- The other threads leave it as it is. -/
theorem WatcherState.work_le {l : WatcherLabel} (hs : w.step env capacity l = some v)
    (hw : WellBound w.server) (h : Piped env capacity w) (hflag : w.deconstructing = true)
    (hl : l.own = false) : v.work ≤ w.work := by
  cases wakeStep_cases hs with
  | loop hserving => exact absurd hserving (h.not_serving hflag).1
  | @other l server hne hst =>
    have hstill := watcher_still hst hw hne
    have hwork : server.watcher.work = w.server.watcher.work := by
      rw [SystemWatcher.work, SystemWatcher.work, hstill.1, hstill.2]
    simp only [WatcherState.work, hwork]
    exact le_rfl
  | _ => cases hl

/-- What stays as it is once the flag is set, in a run from `w`. -/
structure Stopping (env : Env) (capacity : Nat) (w v : WatcherState) : Prop where
  /-- the state is one that is reached -/
  reachable : (watched env capacity).Reachable v
  /-- the flag is set -/
  flag : v.deconstructing = true
  /-- the pipe does not get fuller before `wake` -/
  pipe : v.main = .destroying → w.main = .destroying ∧ v.pipe ≤ w.pipe

theorem Stopping.step {u : WatcherState} {l : WatcherLabel} (hs : u.step env capacity l = some v)
    (h : Stopping env capacity w u) : Stopping env capacity w v := by
  have hmain := (Piped.of_reaches h.reachable).not_serving h.flag
  have hreach : (watched env capacity).Reachable v := h.reachable.step trivial hs
  cases wakeStep_cases hs with
  | loop hserving => exact absurd hserving hmain.1
  | read => exact ⟨hreach, h.flag, fun hm => ⟨(h.pipe hm).1, (Nat.sub_le ..).trans (h.pipe hm).2⟩⟩
  | handled _ hwaking => exact absurd hwaking (hmain.2 _)
  | woken => exact ⟨hreach, h.flag, nofun⟩
  | destroy hserving => exact absurd hserving hmain.1
  | join => exact ⟨hreach, h.flag, nofun⟩
  | _ => exact ⟨hreach, h.flag, h.pipe⟩

/-- Where the two threads can not go on the watcher has returned and `~SystemWatcher` is done, or
has no room for what it writes. -/
theorem Piped.of_atRest (h : Piped env capacity w) (ho : PipeOpen env w.server)
    (hflag : w.deconstructing = true) (hcap : 2 ≤ capacity)
    (hrest : (watched env capacity).AtRest (fun _ l => l.own = true ∧ l.omits env = false) w) :
    w.returned = true ∧
      (w.main = .joined ∨ w.main = .destroying ∧ capacity < w.pipe + 2) := by
  have hno := h.not_serving hflag
  have hwake : w.main = .destroying → capacity < w.pipe + 2 := by
    intro hmain
    by_contra hroom
    have hnone : w.wake capacity = none := hrest .wake ⟨rfl, rfl⟩
    rw [WatcherState.wake, if_pos (Nat.not_lt.mp hroom), hmain] at hnone
    cases hnone
  have hreturned : w.returned = true := by
    by_contra hr
    -- a watcher that sleeps is one that the destructor has woken
    have hwoken : w.looked = true → 0 < w.pipe := by
      intro hlooked
      cases hmain : w.main with
      | serving => exact absurd hmain hno.1
      | waking lock => exact absurd hmain (hno.2 lock)
      | destroying =>
        have hfull := hwake hmain
        omega
      | joining => exact h.woken hmain hlooked
      | joined => exact absurd (h.joined hmain) hr
    obtain ⟨l, hl, homits, hne⟩ := h.exists_watch ho (Bool.eq_false_iff.mpr hr) hwoken
    exact hne (hrest l ⟨WatcherLabel.own_of_isWatch hl, homits⟩)
  refine ⟨hreturned, ?_⟩
  cases hmain : w.main with
  | serving => exact absurd hmain hno.1
  | waking lock => exact absurd hmain (hno.2 lock)
  | destroying => exact Or.inr ⟨rfl, hwake hmain⟩
  | joining =>
    have hnone : w.join = none := hrest .join ⟨rfl, rfl⟩
    rw [WatcherState.join, if_pos ⟨hmain, hreturned⟩] at hnone
    cases hnone
  | joined => exact Or.inl rfl

/-- And there they can not go on. -/
theorem Piped.atRest (h : Piped env capacity w) (hr : w.returned = true)
    (hmain : w.main = .joined ∨ w.main = .destroying ∧ capacity < w.pipe + 2) :
    (watched env capacity).AtRest (fun _ l => l.own = true) w := by
  obtain ⟨hphase, hflag⟩ := h.returned hr
  have hno := h.not_serving hflag
  have hlooked : ¬w.looked = true := fun hlooked => by
    rw [(h.looked hlooked).2] at hr
    cases hr
  intro l hl
  by_contra hne
  obtain ⟨v, hs⟩ := Option.ne_none_iff_exists'.mp hne
  cases wakeStep_cases hs with
  | loop => cases hl
  | wait hlook => exact hlooked hlook
  | read _ hnext => cases hphase.symm.trans hnext
  | watch hwait => exact hwait hphase
  | @other l server hother =>
    cases l with
    | watch l => exact hother l rfl
    | _ => cases hl
  | leave _ hno => cases hr.symm.trans hno
  | look _ hno => cases hr.symm.trans hno
  | handled _ hwaking => exact hno.2 _ hwaking
  | woken hroom hdestroying =>
    rcases hmain with hjoined | ⟨-, hfull⟩
    · cases hjoined.symm.trans hdestroying
    · omega
  | destroy hserving => exact hno.1 hserving
  | join hjoining =>
    rcases hmain with hmain | ⟨hmain, -⟩ <;> cases hmain.symm.trans hjoining

/-- The watcher sleeps in `epoll.wait` when the destructor is called. -/
def asleepAtExit : WatcherState :=
  (watched {} 65536).final (fun _ _ => True) [.look, .destroy]

/-- It is woken, and joined. -/
def wokenAtExit : List WatcherLabel :=
  [.wake, .server (.watch (.wait [4])), .server (.watch .next), .server (.watch .next), .look,
    .join]

/-- The end of it. -/
def joinedAtExit : WatcherState :=
  ((watched {} 65536).replay (fun _ _ => True) asleepAtExit wokenAtExit).getD asleepAtExit

theorem asleepAtExit_reachable : (watched {} 65536).Reachable asleepAtExit :=
  System.reaches_final _ _ _ (by decide +kernel)

theorem run_wokenAtExit :
    (watched {} 65536).Run (fun _ _ => True) asleepAtExit wokenAtExit joinedAtExit :=
  System.Run.of_replay_getD (by decide +kernel)

/-- The pipe may be full: a handler filled it, and the watcher saw the flag before it read it. -/
def fullAtExit : WatcherState :=
  (watched {} 2).final (fun _ _ => True)
    [.server (.loop .opened), .server (.loop (.drain 0)), .wake, .destroy, .look]

example : (watched {} 2).Reachable fullAtExit ∧ fullAtExit.main = .destroying ∧
    (watched {} 2).AtRest (fun _ l => l.own = true) fullAtExit := by
  have hreach : (watched {} 2).Reachable fullAtExit :=
    System.reaches_final _ _ _ (by decide +kernel)
  have hmain : fullAtExit.main = .destroying := by decide +kernel
  exact ⟨hreach, hmain, (Piped.of_reaches hreach).atRest (by decide +kernel)
    (Or.inr ⟨hmain, by decide +kernel⟩)⟩

/-! ## The handlers -/

/-- What the watcher has to do before it takes something out of the pipe, while there is no room
for what `wake` writes. -/
def WatcherState.delay (env : Env) (capacity : Nat) (w : WatcherState) : Nat :=
  if w.pipe + 2 ≤ capacity then 0
  else 1 + (if w.looked then 0 else w.server.watcher.work) +
    if env.pipes0 ∈ w.server.watcher.events then 0 else roundWork

/-- There is no room for what `wake` writes. -/
theorem WatcherState.not_room {lock : Option Nat} (hmain : w.main = .waking lock)
    (hwake : w.wake capacity = none) :
    ¬w.pipe + 2 ≤ capacity := by
  intro hroom
  rw [WatcherState.wake, if_pos hroom, hmain] at hwake
  cases hwake

/-- A step of the watcher brings it nearer to the pipe, unless it is told of other events. -/
theorem WatcherState.delay_lt {l : WatcherLabel} (hs : w.step env capacity l = some v)
    (h : Piped env capacity w) (hcap : 2 ≤ capacity) {lock : Option Nat}
    (hmain : w.main = .waking lock)
    (hroom : ¬w.pipe + 2 ≤ capacity) (hl : l.isWatch = true) (homits : l.omits env = false) :
    v.delay env capacity < w.delay env capacity := by
  have hbusy : w.server.watcher.phase ≠ .wait → w.looked = false :=
    fun hphase => Bool.eq_false_iff.mpr fun hlooked => hphase (h.looked hlooked).1
  cases wakeStep_cases hs with
  | @wait events server hlooked _ hst =>
    obtain ⟨hevents, hwork⟩ := work_wait hst
    have hold : env.pipes0 ∉ w.server.watcher.events := by
      rw [h.idle (h.looked hlooked).1]
      exact nofun
    have hnew : env.pipes0 ∈ server.watcher.events := by
      rw [hevents]
      exact not_not.mp (of_decide_eq_false homits)
    simp only [WatcherState.delay, if_neg hroom, hlooked, if_pos hnew, if_neg hold,
      Bool.false_eq_true, if_false, if_true]
    omega
  | @read events hpos hphase hevents =>
    -- now there is room
    have hnow : w.pipe - min w.pipe 10 + 2 ≤ capacity := by
      have := h.room
      omega
    simp only [WatcherState.delay, if_neg hroom, if_pos hnow]
    omega
  | @watch l server hwait hnext hst =>
    have hlt := (watchStep_cases hst).work_lt hwait
    have hmem := (watchStep_cases hst).mem_events hwait hnext
    simp only [WatcherState.delay, if_neg hroom, hbusy hwait, Bool.false_eq_true, if_false, hmem]
    omega
  | @other l server hne =>
    cases l with
    | watch l => exact absurd rfl (hne l)
    | _ => cases hl
  | leave _ _ _ hflag => exact absurd hmain ((h.not_serving hflag).2 _)
  | look hlooked _ hphase =>
    have hpos := SystemWatcher.work_pos hphase
    simp only [WatcherState.delay, if_neg hroom, hlooked, Bool.false_eq_true, if_false, if_true]
    omega
  | _ => cases hl

/-- It has a round to go then. -/
theorem WatcherState.delay_lt_of_omits {l : WatcherLabel} (hs : w.step env capacity l = some v)
    (h : Piped env capacity w) (hroom : ¬w.pipe + 2 ≤ capacity) (homits : l.omits env = true) :
    v.delay env capacity < w.delay env capacity + roundWork := by
  cases wakeStep_cases hs with
  | @wait events server hlooked _ hst =>
    obtain ⟨-, hwork⟩ := work_wait hst
    have hold : env.pipes0 ∉ w.server.watcher.events := by
      rw [h.idle (h.looked hlooked).1]
      exact nofun
    simp only [WatcherState.delay, if_neg hroom, hlooked, if_neg hold, Bool.false_eq_true, if_false,
      if_true]
    split <;> omega
  | @watch l server hwait _ hst =>
    cases l with
    | wait events => exact absurd (Option.ite_none_right_eq_some.mp hst).1.1 hwait
    | _ => cases homits
  | @other l server hne =>
    cases l with
    | watch l => exact absurd rfl (hne l)
    | _ => cases homits
  | _ => cases homits

/-- The other threads leave it where it is, and the handler too, as long as it waits. -/
theorem WatcherState.delay_le {l : WatcherLabel} (hs : w.step env capacity l = some v)
    (hw : WellBound w.server) {lock : Option Nat} (hmain : w.main = .waking lock)
    (hwake : w.wake capacity = none) :
    v.main = .waking lock ∧
      (l.isWatch = false → v.delay env capacity ≤ w.delay env capacity) := by
  cases wakeStep_cases hs with
  | loop hserving => cases hmain.symm.trans hserving
  | @other l server hne hst =>
    have hstill := watcher_still hst hw hne
    have hwork : server.watcher.work = w.server.watcher.work := by
      rw [SystemWatcher.work, SystemWatcher.work, hstill.1, hstill.2]
    refine ⟨hmain, fun _ => ?_⟩
    simp only [WatcherState.delay, hwork, hstill.2]
    exact le_rfl
  | handled => cases hwake.symm.trans hs
  | woken => cases hwake.symm.trans hs
  | destroy hserving => cases hmain.symm.trans hserving
  | join hjoining => cases hmain.symm.trans hjoining
  | _ => exact ⟨hmain, fun hl => by cases hl⟩

/-- Two websockets have drained, and the second handler finds the pipe full. -/
def pipeFull : WatcherState :=
  (watched {} 2).final (fun _ _ => True)
    [.server (.loop .opened), .server (.loop (.drain 0)), .wake, .server (.loop (.drain 0)), .look]

/-- The watcher is told of it. -/
def pipeReport : List WatcherLabel := [.server (.watch (.wait [4]))]

/-- It has not read it yet. -/
def pipeReported : WatcherState :=
  ((watched {} 2).replay (fun w _ => w.wake 2 = none) pipeFull pipeReport).getD pipeFull

end Woeful
