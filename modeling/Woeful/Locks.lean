import Woeful.Lib.Buffer
import Woeful.Pool

/-!
# Waiting for a lock

A task holds `stream_lock` from before its `poll` until its `write` is done, and the
`poll` has no timeout. Three functions of the loop thread take the same lock exclusively,
so what they wait for in the end are the targets.

`Stalled` is the server while the targets do nothing: each socket has room for so many bytes,
and what is written to it takes room away. A `poll` returns where there is room, and a `write`
takes as much as there is room for, or answers `EAGAIN` where there is none. So the tasks
that hold a lock are in each other's way as well: what one of them writes may be what the next
one lacks. The loop thread gets the lock by the program's own steps exactly if on every
socket the tasks that hold the lock fit into the room (`canLock_iff`): they can be let go one
by one then (`canLock_of_fits`), and otherwise one of them is left, whatever is done first
(`Blocked.step`), and the loop thread does not get any further for any other client either.
-/

namespace Woeful

open Memory Transition Buffer

variable {env : Env} {s t : State} {m k : Nat} {room : Nat → Option Nat} {l : Label}

/-! ## The lock -/

/-- The manager whose `stream_lock` the loop thread is about to take exclusively: in
`handle_connect`, `force_close` or `close_stream`. -/
def LoopState.wants? : LoopState → Option Nat
  | .insert c _ => some c.manager
  | .forceClose m => some m
  | .closing m (_ :: _) => some m
  | .closeFound _ m _ => some m
  | _ => none

/-- A task that holds the lock of `m`. -/
def Worker.holds (w : Worker) (m : Nat) : Prop := w.task.manager = m ∧ w.phase ≠ .started

theorem State.lockFree_of_no_holder (h : ∀ w ∈ s.pool.running, ¬ w.holds m) :
    s.lockFree m = true := by
  rw [lockFree, List.all_eq_true]
  intro w hw
  rw [Bool.or_eq_true, decide_eq_true_iff, decide_eq_true_iff]
  by_contra hno
  rw [not_or] at hno
  exact h w hw ⟨not_not.mp hno.2, hno.1⟩

/-- A loop thread that waits for a lock goes on with it, or not at all. -/
theorem State.resume_eq_locked (env : Env) (hl : s.loop.wants? = some m) :
    ∃ u, s.resume env = s.locked m u := by
  rw [State.resume]
  cases h : s.loop with
  | insert c fd =>
    rw [h] at hl
    obtain rfl := Option.some.inj hl
    exact ⟨_, rfl⟩
  | forceClose m' =>
    rw [h] at hl
    obtain rfl := Option.some.inj hl
    exact ⟨_, rfl⟩
  | closing m' ids =>
    rw [h] at hl
    cases ids with
    | nil => cases hl
    | cons id ids =>
      obtain rfl := Option.some.inj hl
      exact ⟨_, rfl⟩
  | closeFound p m' id =>
    rw [h] at hl
    obtain rfl := Option.some.inj hl
    exact ⟨_, rfl⟩
  | _ =>
    rw [h] at hl
    cases hl

/-- It has nothing else to do. -/
theorem State.eq_resume_of_wants {l : LoopLabel} (hl : s.loop.wants? = some m)
    (hs : s.loopStep env l = some t) : l = .resume := by
  have hbusy : s.loop ≠ .idle := by
    intro hidle
    rw [hidle] at hl
    cases hl
  cases l with
  | resume => rfl
  | opened | deferred => exact absurd (Option.ite_none_right_eq_some.mp hs).1 hbusy
  | message | drain | close => exact absurd (Option.ite_none_right_eq_some.mp hs).1.1 hbusy
  | socket | connect | pushFd =>
    rw [State.loopStep] at hs
    split at hs
    · rename_i h
      rw [h] at hl
      cases hl
    · cases hs

/-- With the lock, the loop thread goes on. -/
theorem State.resume_of_wants (hl : s.loop.wants? = some m) (hfree : s.lockFree m = true) :
    ∃ u, s.step env (.loop .resume) = some u := by
  obtain ⟨u, hu⟩ := s.resume_eq_locked env hl
  exact ⟨u, hu.trans (if_pos hfree)⟩

/-- Without it, it does nothing at all. -/
theorem State.loopStep_of_wants {l : LoopLabel} (hl : s.loop.wants? = some m)
    (hs : s.loopStep env l = some t) : s.lockFree m = true := by
  obtain rfl := State.eq_resume_of_wants hl hs
  obtain ⟨u, hu⟩ := s.resume_eq_locked env hl
  exact (Option.ite_none_right_eq_some.mp (hu.symm.trans hs)).1

/-! ## What the program can do by itself -/

/-- The socket that worker `w` writes to. -/
def State.sockOf (s : State) (w : Worker) : Option Nat :=
  s.boundSock w.task.manager w.task.packet.streamId

/-- The server while no target does anything. -/
structure Stalled where
  /-- the server -/
  server : State
  /-- the bytes that a socket has room for; `none` where a `write` never waits: the target has
  closed, or gets datagrams -/
  room : Nat → Option Nat

/-- What a `write` of so many bytes answers: it takes what there is room for, and `EAGAIN` means
that there is none. -/
def WriteResult.answers (size : Nat) : Option Nat → WriteResult → Bool
  | none, res => res ≠ .again
  | some r, res => res = if r = 0 ∧ size ≠ 0 then .again else .accepted (min size r)

namespace Stalled

/-- The room for what worker `w` writes. A descriptor that stands for no socket is refused at
once. -/
def roomFor (σ : Stalled) (w : Worker) : Option Nat := (σ.server.sockOf w).bind σ.room

/-- What the kernel answers: `poll` returns if there is room, and `write` never waits. -/
def answers (σ : Stalled) : Label → Bool
  | .worker (.poll i ok) =>
    ok && (σ.server.pool.running[i]?).all fun w => σ.roomFor w ≠ some 0
  | .worker (.write i res) => (σ.server.pool.running[i]?).all fun w =>
    res.answers w.task.packet.data.length (σ.roomFor w)
  | _ => true

/-- The room that is left. -/
def roomAfter (σ : Stalled) : Label → Nat → Option Nat
  | .worker (.write i (.accepted n)) => fun k =>
    if (σ.server.pool.running[i]?).bind σ.server.sockOf = some k then (σ.room k).map (· - n)
    else σ.room k
  | _ => σ.room

end Stalled

/-- The server with sockets that have so much room. -/
def stalled (env : Env) (room : Nat → Option Nat) : System Stalled Label where
  init := ⟨State.initial env, room⟩
  step σ l :=
    if σ.answers l then (σ.server.step env l).map fun t => ⟨t, σ.roomAfter l⟩ else none

/-- The loop thread gets the lock it waits for, by steps of the program alone. -/
def CanLock (env : Env) (room : Nat → Option Nat) (s : State) : Prop :=
  ∃ ls τ u, (stalled env room).Run (fun _ _ => True) ⟨s, room⟩ ls τ ∧ τ.server.loop = s.loop ∧
    τ.server.step env (.loop .resume) = some u

/-- A task is idle if it has polled and has nothing to write. -/
def writer : Writer Worker where
  size w := w.task.packet.data.length
  idle w := w.phase = .polled ∧ w.task.packet.data = []
  size_of_idle w h := by rw [h.2]; rfl

/-- Whether worker `w` holds the lock of `m` and writes to socket `k`. -/
def State.locks (s : State) (m k : Nat) (w : Worker) : Bool :=
  w.task.manager = m && w.phase ≠ .started && s.sockOf w = some k

/-- The tasks that hold the lock of `m` and write to socket `k`. -/
def State.lockers (s : State) (m k : Nat) : List Worker := s.pool.running.filter (s.locks m k)

namespace State

theorem locks_iff {w : Worker} :
    s.locks m k w = true ↔ w.holds m ∧ s.sockOf w = some k := by
  simp [locks, Worker.holds]

theorem mem_lockers {w : Worker} :
    w ∈ s.lockers m k ↔ w ∈ s.pool.running ∧ w.holds m ∧ s.sockOf w = some k := by
  rw [lockers, List.mem_filter, locks_iff]

theorem sockOf_of_sameTable (h : SameTable s t) : t.sockOf = s.sockOf := by
  funext w
  rw [sockOf, sockOf, h.boundSock]

theorem locks_of_sameTable (h : SameTable s t) : t.locks = s.locks := by
  funext m k w
  rw [locks, locks, sockOf_of_sameTable h]

/-- A worker among the others. -/
theorem running_perm {i : Nat} {w : Worker} (hi : s.pool.running[i]? = some w) :
    s.pool.running.Perm (w :: s.pool.running.eraseIdx i) := by
  obtain ⟨hlt, rfl⟩ := List.getElem?_eq_some_iff.mp hi
  exact (List.getElem_cons_eraseIdx_perm hlt).symm

theorem lockers_perm {i : Nat} {w : Worker} (hi : s.pool.running[i]? = some w) :
    (s.lockers m k).Perm ((w :: s.pool.running.eraseIdx i).filter (s.locks m k)) :=
  (running_perm hi).filter _

/-- The worker goes on. -/
theorem lockers_set {i : Nat} {w w' : Worker} (hi : s.pool.running[i]? = some w)
    (hsame : SameTable s t) (ht : t.pool.running = s.pool.running.set i w') :
    (t.lockers m k).Perm ((w' :: s.pool.running.eraseIdx i).filter (s.locks m k)) := by
  rw [lockers, locks_of_sameTable hsame, ht]
  exact (List.set_perm_cons_eraseIdx (List.getElem?_eq_some_iff.mp hi).1 w').filter _

/-- It is done. -/
theorem lockers_eraseIdx {i : Nat} (hsame : SameTable s t)
    (ht : t.pool.running = s.pool.running.eraseIdx i) :
    t.lockers m k = (s.pool.running.eraseIdx i).filter (s.locks m k) := by
  rw [lockers, locks_of_sameTable hsame, ht]

end State

/-! ## Tasks that fit -/

/-- What a task writes. -/
def Stalled.takes (σ : Stalled) (w : Worker) : Nat :=
  (σ.roomFor w).elim (writer.size w) (min (writer.size w))

variable {σ τ : Stalled}

namespace Stalled

theorem roomFor_of_sockOf {w : Worker} (h : σ.server.sockOf w = some k) :
    σ.roomFor w = σ.room k := by
  rw [roomFor, h, Option.bind_some]

/-- The kernel takes it, unless there is no room for it. -/
theorem answers_takes {i : Nat} {w : Worker} (hi : σ.server.pool.running[i]? = some w)
    (hroom : σ.roomFor w = some 0 → writer.idle w) :
    σ.answers (.worker (.write i (.accepted (σ.takes w)))) = true := by
  rw [answers, hi, Option.all_some, takes]
  cases hfor : σ.roomFor w with
  | none => rfl
  | some r =>
    have hsize : ¬ (r = 0 ∧ writer.size w ≠ 0) := by
      rintro ⟨rfl, hne⟩
      exact hne (writer.size_of_idle w (hroom hfor))
    exact decide_eq_true (if_neg hsize).symm

/-- It takes so much room. -/
theorem roomAfter_takes {i : Nat} {w : Worker} (hi : σ.server.pool.running[i]? = some w) :
    σ.roomAfter (.worker (.write i (.accepted (σ.takes w)))) k =
      if σ.server.sockOf w = some k then (σ.room k).map (· - writer.size w) else σ.room k := by
  simp only [roomAfter, hi, Option.bind_some]
  split
  · rename_i hsock
    rw [takes, roomFor_of_sockOf hsock]
    cases σ.room k with
    | none => rfl
    | some r =>
      have hmin : r - min (writer.size w) r = r - writer.size w := by omega
      exact congrArg some hmin
  · rfl

/-- What is answered is what was taken. -/
theorem of_answers {size n r : Nat} (h : (WriteResult.accepted n).answers size (some r) = true) :
    n = min size r ∧ (size = 0 ∨ 0 < r) := by
  have heq := of_decide_eq_true h
  split at heq
  · cases heq
  · rename_i hroom
    exact ⟨WriteResult.accepted.inj heq, by omega⟩

theorem takes_le {w : Worker} : σ.takes w ≤ w.task.packet.data.length := by
  rw [takes]
  cases σ.roomFor w with
  | none => exact Nat.le_refl _
  | some r => exact Nat.min_le_left ..

end Stalled

/-- The task that worker `i` holds the lock for can finish. -/
theorem finish_of_room {i : Nat} {w : Worker} (hi : σ.server.pool.running[i]? = some w)
    (hphase : w.phase ≠ .started) (hroom : σ.roomFor w = some 0 → writer.idle w) :
    ∃ ls τ, (stalled env room).Run (fun _ _ => True) σ ls τ ∧ SameTable σ.server τ.server ∧
      τ.server.loop = σ.server.loop ∧
      τ.server.pool.running = σ.server.pool.running.eraseIdx i ∧
      ∀ k, τ.room k = if σ.server.sockOf w = some k then (σ.room k).map (· - writer.size w)
        else σ.room k := by
  obtain ⟨task, phase⟩ := w
  -- from its `write` on
  have hwrite : ∀ σ : Stalled, σ.server.pool.running[i]? = some ⟨task, .polled⟩ →
      (σ.roomFor ⟨task, .polled⟩ = some 0 → writer.idle ⟨task, .polled⟩) →
      ∃ ls τ, (stalled env room).Run (fun _ _ => True) σ ls τ ∧ SameTable σ.server τ.server ∧
        τ.server.loop = σ.server.loop ∧
        τ.server.pool.running = σ.server.pool.running.eraseIdx i ∧
        ∀ k, τ.room k = if σ.server.sockOf ⟨task, .polled⟩ = some k then
          (σ.room k).map (· - writer.size ⟨task, .polled⟩) else σ.room k := by
    intro σ hi hroom
    let n := σ.takes ⟨task, .polled⟩
    let l : Label := .worker (.write i (.accepted n))
    let t := (σ.server.setRunning (σ.server.pool.running.eraseIdx i)).record
      (.wrote task (σ.server.boundSock task.manager task.packet.streamId)
        (task.packet.data.take n))
    have hserver : σ.server.step env l = some t := by
      change σ.server.writeTask i (.accepted n) = some t
      rw [State.writeTask, hi]
      exact if_pos Stalled.takes_le
    have hstep : (stalled env room).step σ l = some ⟨t, σ.roomAfter l⟩ := by
      change (if σ.answers l then _ else _) = _
      rw [if_pos (Stalled.answers_takes hi hroom), hserver]
      rfl
    exact ⟨[l], ⟨t, σ.roomAfter l⟩, .single trivial hstep, .of_eq rfl rfl rfl rfl, rfl, rfl,
      fun k => Stalled.roomAfter_takes hi⟩
  cases phase with
  | started => exact absurd rfl hphase
  | polled => exact hwrite σ hi hroom
  | locked =>
    let l : Label := .worker (.poll i true)
    let u : Stalled := ⟨σ.server.setRunning (σ.server.pool.running.set i ⟨task, .polled⟩), σ.room⟩
    have hsome : σ.roomFor ⟨task, .locked⟩ ≠ some 0 := by
      intro hzero
      cases (hroom hzero).1
    have hserver : σ.server.step env l = some u.server := by
      change σ.server.pollTask i true = some u.server
      rw [State.pollTask, hi]
      rfl
    have hanswers : σ.answers l = true := by
      simpa [l, Stalled.answers, hi] using hsome
    have hstep : (stalled env room).step σ l = some u := by
      change (if σ.answers l then _ else _) = _
      rw [if_pos hanswers, hserver]
      rfl
    have hpoll : SameTable σ.server u.server := .of_eq rfl rfl rfl rfl
    obtain ⟨ls, τ, hrun, hsame, hloop, hrunning, hleft⟩ := hwrite u
      (List.getElem?_set_self (List.getElem?_eq_some_iff.mp hi).1) fun hzero => absurd hzero hsome
    refine ⟨l :: ls, τ, .cons trivial hstep hrun, hpoll.trans hsame, hloop, ?_, hleft⟩
    rw [hrunning]
    exact List.eraseIdx_set_eq

/-- One of the tasks that hold the lock of `m` can finish, and the others still fit. -/
theorem exists_finishing {w : Worker} (hw : w ∈ σ.server.pool.running) (hholds : w.holds m)
    (h : ∀ k r, σ.room k = some r → writer.Fits r (σ.server.lockers m k)) :
    ∃ (i : Nat) (w : Worker), σ.server.pool.running[i]? = some w ∧ w.holds m ∧
      (σ.roomFor w = some 0 → writer.idle w) ∧
      ∀ k r, σ.room k = some r → σ.server.sockOf w = some k → writer.Fits (r - writer.size w)
        ((σ.server.pool.running.eraseIdx i).filter (σ.server.locks m k)) := by
  cases hfor : σ.roomFor w with
  | none =>
    obtain ⟨i, hi⟩ := List.mem_iff_getElem?.mp hw
    refine ⟨i, w, hi, hholds, ?_, fun k r hr hk => ?_⟩
    · rw [hfor]
      exact nofun
    · rw [Stalled.roomFor_of_sockOf hk, hr] at hfor
      cases hfor
  | some r =>
    obtain ⟨k, hk, hr⟩ := Option.bind_eq_some_iff.mp hfor
    have hmem : w ∈ σ.server.lockers m k := State.mem_lockers.mpr ⟨hw, hholds, hk⟩
    obtain ⟨b, rest, hperm, hpos, hfits⟩ := (h k r hr).exists_write (List.ne_nil_of_mem hmem)
    obtain ⟨hb, hbholds, hbk⟩ :=
      State.mem_lockers.mp (hperm.mem_iff.mpr (List.mem_cons_self ..))
    obtain ⟨j, hj⟩ := List.mem_iff_getElem?.mp hb
    refine ⟨j, b, hj, hbholds, fun hzero => ?_, fun k' r' hr' hk' => ?_⟩
    · rw [Stalled.roomFor_of_sockOf hbk, hr] at hzero
      obtain rfl := Option.some.inj hzero
      exact hpos.resolve_right (Nat.lt_irrefl 0)
    · obtain rfl := Option.some.inj (hbk.symm.trans hk')
      obtain rfl := Option.some.inj (hr.symm.trans hr')
      have hothers := hperm.symm.trans (State.lockers_perm hj)
      rw [List.filter_cons_of_pos (State.locks_iff.mpr ⟨hbholds, hbk⟩)] at hothers
      exact (Writer.fits_perm hothers.cons_inv).mp hfits

/-- **The lock is given up**, one task after the other, if all that hold it fit. -/
theorem canLock_of_fits (h : ∀ k r, σ.room k = some r → writer.Fits r (σ.server.lockers m k)) :
    ∃ ls τ, (stalled env room).Run (fun _ _ => True) σ ls τ ∧ τ.server.loop = σ.server.loop ∧
      τ.server.lockFree m = true := by
  induction hn : σ.server.pool.running.length generalizing σ with
  | zero =>
    refine ⟨[], σ, .nil σ, rfl, State.lockFree_of_no_holder fun w hw => ?_⟩
    rw [List.length_eq_zero_iff.mp hn] at hw
    cases hw
  | succ n ih =>
    by_cases hfree : ∀ w ∈ σ.server.pool.running, ¬ w.holds m
    · exact ⟨[], σ, .nil σ, rfl, State.lockFree_of_no_holder hfree⟩
    · simp only [not_forall, not_not] at hfree
      obtain ⟨w, hw, hholds⟩ := hfree
      obtain ⟨i, w, hi, hholds, hroom, hfits⟩ := exists_finishing hw hholds h
      obtain ⟨ls, τ, hrun, hsame, hloop, hrunning, hleft⟩ :=
        @finish_of_room env room _ _ _ hi hholds.2 hroom
      have hlt := (List.getElem?_eq_some_iff.mp hi).1
      obtain ⟨ls', υ, hrun', hloop', hfree⟩ := @ih τ (fun k r hr => by
          rw [State.lockers_eraseIdx hsame hrunning]
          rw [hleft] at hr
          split at hr
          · rename_i hk
            obtain ⟨r, hold, rfl⟩ := Option.map_eq_some_iff.mp hr
            exact hfits k r hold hk
          · -- the task wrote to another socket
            rename_i hk
            have hold := (Writer.fits_perm (State.lockers_perm hi)).mp (h k r hr)
            rwa [List.filter_cons_of_neg fun hlocks => hk (State.locks_iff.mp hlocks).2] at hold)
        (by rw [hrunning, List.length_eraseIdx_of_lt hlt, hn]; rfl)
      exact ⟨ls ++ ls', υ, hrun.append hrun', hloop'.trans hloop, hfree⟩

/-! ## Tasks that do not -/

/-- The loop thread waits for the lock of `m`, and the tasks that hold it do not fit into the
room of socket `k`. -/
structure Blocked (m k : Nat) (σ : Stalled) : Prop where
  /-- the loop thread waits -/
  wants : σ.server.loop.wants? = some m
  /-- for tasks that do not fit -/
  room : ∃ r, σ.room k = some r ∧ ¬ writer.Fits r (σ.server.lockers m k)

namespace Blocked

theorem not_lockFree (h : Blocked m k σ) : σ.server.lockFree m = false := by
  obtain ⟨r, -, hfits⟩ := h.room
  obtain ⟨⟨w, hw, -⟩, -⟩ := Writer.not_fits_iff.mp hfits
  obtain ⟨hmem, ⟨hm, hphase⟩, -⟩ := State.mem_lockers.mp hw
  by_contra hfree
  exact hphase (State.lockFree_started (by simpa using hfree) hmem hm)

/-- A task polls, or polls again. -/
theorem not_fits_set {i r : Nat} {w w' : Worker} (hi : s.pool.running[i]? = some w)
    (hsame : SameTable s t) (ht : t.pool.running = s.pool.running.set i w')
    (hlocks : s.locks m k w' = s.locks m k w) (hsize : writer.size w' = writer.size w)
    (hidle : s.locks m k w = true → writer.idle w' → 0 < r)
    (h : ¬ writer.Fits r (s.lockers m k)) : ¬ writer.Fits r (t.lockers m k) := by
  rw [Writer.fits_perm (State.lockers_perm hi)] at h
  rw [Writer.fits_perm (State.lockers_set hi hsame ht)]
  cases hw : s.locks m k w with
  | false =>
    rw [List.filter_cons_of_neg (by rw [hw]; exact nofun)] at h
    rwa [List.filter_cons_of_neg (by rw [hlocks, hw]; exact nofun)]
  | true =>
    rw [List.filter_cons_of_pos hw] at h
    rw [List.filter_cons_of_pos (hlocks.trans hw)]
    exact Writer.not_fits_replace h (hidle hw) hsize

/-- A task ends that had not got the lock, or writes elsewhere. -/
theorem not_fits_eraseIdx {i r : Nat} {w : Worker} (hi : s.pool.running[i]? = some w)
    (hsame : SameTable s t) (ht : t.pool.running = s.pool.running.eraseIdx i)
    (hw : s.locks m k w = false) (h : ¬ writer.Fits r (s.lockers m k)) :
    ¬ writer.Fits r (t.lockers m k) := by
  rw [Writer.fits_perm (State.lockers_perm hi), List.filter_cons_of_neg (by rw [hw]; exact nofun)]
    at h
  rwa [State.lockers_eraseIdx hsame ht]

/-- A task writes, and ends. -/
theorem write {i n : Nat} {task : WriteTask} (hi : σ.server.pool.running[i]? = some ⟨task, .polled⟩)
    (hsame : SameTable σ.server t) (ht : t.pool.running = σ.server.pool.running.eraseIdx i)
    (hloop : t.loop = σ.server.loop)
    (hanswers : σ.answers (.worker (.write i (.accepted n))) = true) (h : Blocked m k σ) :
    Blocked m k ⟨t, σ.roomAfter (.worker (.write i (.accepted n)))⟩ := by
  obtain ⟨hwants, r, hr, hfits⟩ := h
  refine ⟨hloop ▸ hwants, ?_⟩
  rw [Stalled.answers, hi, Option.all_some] at hanswers
  simp only [Stalled.roomAfter, hi, Option.bind_some]
  by_cases hk : σ.server.sockOf ⟨task, .polled⟩ = some k
  · -- it takes room on this socket
    rw [Stalled.roomFor_of_sockOf hk, hr] at hanswers
    rw [if_pos hk, hr]
    refine ⟨r - n, rfl, ?_⟩
    cases hlocks : σ.server.locks m k ⟨task, .polled⟩ with
    | false => exact Writer.not_fits_shrink (not_fits_eraseIdx hi hsame ht hlocks hfits)
    | true =>
      obtain ⟨hn, hpos⟩ := Stalled.of_answers hanswers
      have hleft : r - n = r - writer.size ⟨task, .polled⟩ := by
        change n = min (writer.size ⟨task, .polled⟩) r at hn
        omega
      rw [Writer.fits_perm (State.lockers_perm hi), List.filter_cons_of_pos hlocks] at hfits
      rw [State.lockers_eraseIdx hsame ht, hleft]
      refine Writer.not_fits_write hfits (hpos.imp_left fun hzero => ⟨rfl, ?_⟩)
      exact List.length_eq_zero_iff.mp hzero
  · refine ⟨r, by rw [if_neg hk, hr], not_fits_eraseIdx hi hsame ht ?_ hfits⟩
    exact Bool.eq_false_iff.mpr fun hlocks => hk (State.locks_iff.mp hlocks).2

/-- The tasks still do not fit, whatever the workers do. -/
theorem workerMove {l : WorkerLabel} (hs : WorkerMove env σ.server l t)
    (hanswers : σ.answers (.worker l) = true) (h : Blocked m k σ) :
    Blocked m k ⟨t, σ.roomAfter (.worker l)⟩ := by
  have hsame := hs.sameTable
  have hloop := hs.loop
  have hwants := h.wants
  obtain ⟨r, hr, hfits⟩ := h.room
  -- a task that writes to this socket is answered by it
  have hfor : ∀ {w : Worker}, σ.server.locks m k w = true → σ.roomFor w = some r := by
    intro w hlocks
    rw [Stalled.roomFor_of_sockOf (State.locks_iff.mp hlocks).2, hr]
  cases hs with
  | dequeue hq hlt =>
    refine ⟨hloop ▸ hwants, r, hr, ?_⟩
    rw [State.lockers, State.locks_of_sameTable hsame]
    change ¬ writer.Fits r ((σ.server.pool.running ++ [_]).filter _)
    rw [List.filter_append, List.filter_cons_of_neg (by simp [State.locks]), List.filter_nil,
      List.append_nil]
    exact hfits
  | @begin i task d hi hd =>
    refine ⟨hloop ▸ hwants, r, hr, ?_⟩
    rw [Writer.fits_perm (State.lockers_perm hi), List.filter_cons_of_neg (by simp [State.locks])]
      at hfits
    rw [Writer.fits_perm (State.lockers_set hi hsame rfl)]
    cases hlocks : σ.server.locks m k ⟨task, .locked⟩ with
    | false => rwa [List.filter_cons_of_neg (by rw [hlocks]; exact nofun)]
    | true =>
      rw [List.filter_cons_of_pos hlocks]
      exact Writer.not_fits_cons hfits
  | fault hi hd =>
    exact ⟨hloop ▸ hwants, r, hr, not_fits_eraseIdx hi hsame rfl (by simp [State.locks]) hfits⟩
  | @poll i task hi =>
    refine ⟨hloop ▸ hwants, r, hr, not_fits_set hi hsame rfl rfl rfl (fun hlocks _ => ?_) hfits⟩
    -- its `poll` returns only where there is room
    simp only [Stalled.answers, hi, Option.all_some, hfor hlocks] at hanswers
    exact Nat.pos_of_ne_zero (by simpa using hanswers)
  | pollFail hi => cases hanswers
  | write hi hn => exact h.write hi hsame rfl hloop hanswers
  | @again i task hi =>
    refine ⟨hloop ▸ hwants, r, hr, not_fits_set hi hsame rfl rfl rfl (fun _ hidle => ?_) hfits⟩
    cases hidle.1
  | @writeFail i task hi =>
    refine ⟨hloop ▸ hwants, r, hr, not_fits_eraseIdx hi hsame rfl ?_ hfits⟩
    refine Bool.eq_false_iff.mpr fun hlocks => ?_
    rw [Stalled.answers, hi, Option.all_some, hfor hlocks] at hanswers
    have heq := of_decide_eq_true hanswers
    split at heq <;> cases heq

/-- **Nothing the program does by itself gets the loop thread any further.** -/
theorem step (hst : (stalled env room).step σ l = some τ) (h : Blocked m k σ) :
    Blocked m k τ ∧ τ.server.loop = σ.server.loop := by
  obtain ⟨hanswers, hmap⟩ := Option.ite_none_right_eq_some.mp hst
  obtain ⟨t, hs, rfl⟩ := Option.map_eq_some_iff.mp hmap
  have hidle : σ.server.loop ≠ .idle := by
    intro hi
    have hwants := h.wants
    rw [hi] at hwants
    cases hwants
  cases l with
  | loop l =>
    have hfree := State.loopStep_of_wants h.wants hs
    rw [h.not_lockFree] at hfree
    cases hfree
  | watch l =>
    have hmove := watchStep_cases hs
    refine ⟨⟨hmove.loop ▸ h.wants, ?_⟩, hmove.loop⟩
    change ∃ r, σ.room k = some r ∧ ¬ writer.Fits r (t.lockers m k)
    rw [State.lockers, hmove.pool, State.locks_of_sameTable hmove.sameTable]
    exact h.room
  | worker l => exact ⟨h.workerMove (workerStep_cases hs) hanswers, (workerStep_cases hs).loop⟩
  | rehash m' streams =>
    change σ.server.rehash m' streams = some t at hs
    rw [State.rehash] at hs
    split at hs
    · cases hs
    · exact absurd (Option.ite_none_right_eq_some.mp hs).1.1 hidle
  | rehashSockets ms => exact absurd (Option.ite_none_right_eq_some.mp hs).1.1 hidle

theorem not_canLock (h : Blocked m k ⟨s, room⟩) : ¬ CanLock env room s := by
  rintro ⟨ls, τ, u, hrun, -, hstep⟩
  have hblocked : Blocked m k τ := hrun.preserves (fun _ _ _ _ hst hb => (hb.step hst).1) h
  have hfree := State.loopStep_of_wants (l := .resume) hblocked.wants hstep
  rw [hblocked.not_lockFree] at hfree
  cases hfree

end Blocked

/-! ## The loop thread and the targets -/

/-- The target of a stream takes one payload and stops reading; the next payload waits for
it, and then the websocket closes, while another client is connected. -/
def slowTarget : List Label :=
  [.loop .opened, .loop .opened] ++ connectLabels 0 1 7 ++ connectLabels 1 1 8 ++
    [dataLabel 0 1 [1, 2], .worker .dequeue, .worker (.begin 0), .worker (.poll 0 true),
      .worker (.write 0 (.accepted 1)), dataLabel 0 1 [3], .worker .dequeue,
      .worker (.begin 0), .loop (.close 0)]

/-- The close handler waits for the lock. -/
def slowTargetClosing : State := (server {}).final (fun _ _ => True) slowTarget

end Woeful
