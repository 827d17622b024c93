import Woeful.Closures

/-!
# The work of the watcher

What the watcher does between two calls of `epoll.wait`. It goes through its events and reads
each until there is nothing more, and every step leaves it less to do (`WatchMove.work_lt`); no
other thread gives it anything in the meantime (`watcher_still`).
-/

namespace Woeful

open Memory Transition

variable {env : Env} {s t : State}

/-! ## Who moves the watcher -/

/-- Only the watcher thread moves the watcher. -/
theorem watcher_still {l : Label} (hs : s.step env l = some t) (hw : WellBound s)
    (hl : ∀ l', l ≠ .watch l') :
    t.watcher.phase = s.watcher.phase ∧ t.watcher.events = s.watcher.events := by
  cases l with
  | loop l =>
    cases (loopStep_cases hs).closureMove hw with
    | quiet hq => exact ⟨hq.phase, hq.events⟩
    | skip _ _ _ heq => exact heq ▸ ⟨rfl, rfl⟩
    | found _ _ _ heq =>
      rw [heq, State.runFound_frame]
      exact ⟨rfl, rfl⟩
    | close _ _ heq => exact heq ▸ ⟨rfl, rfl⟩
  | watch l => exact absurd rfl (hl l)
  | worker l =>
    rw [(workerStep_cases hs).frame]
    exact ⟨rfl, rfl⟩
  | rehash m streams =>
    obtain ⟨-, hframe⟩ := State.rehash_frame hs
    rw [hframe]
    exact ⟨rfl, rfl⟩
  | rehashSockets ms =>
    obtain ⟨-, -, rfl⟩ := State.rehashSockets_frame hs
    exact ⟨rfl, rfl⟩

/-- In `epoll.wait` and at the head of the loop over the events, there is one thing to do. -/
theorem State.watchStep_label {l : WatchLabel} (hs : s.watchStep env l = some t) :
    (s.watcher.phase = .wait → ∃ events, l = .wait events) ∧
      (s.watcher.phase = .next → l = .next) := by
  cases l with
  | wait events =>
    have hphase : s.watcher.phase = .wait := (Option.ite_none_right_eq_some.mp hs).1.1
    rw [hphase]
    exact ⟨fun _ => ⟨events, rfl⟩, nofun⟩
  | next =>
    refine ⟨fun hphase => ?_, fun _ => rfl⟩
    rw [State.watchStep, State.watchNext, hphase] at hs
    cases hs
  | read result =>
    rw [State.watchStep, State.watchRead] at hs
    constructor <;> intro hphase <;> rw [hphase] at hs <;> cases hs
  | erase =>
    rw [State.watchStep, State.watchErase] at hs
    constructor <;> intro hphase <;> rw [hphase] at hs <;> cases hs
  | count =>
    rw [State.watchStep, State.watchCount] at hs
    constructor <;> intro hphase <;> rw [hphase] at hs <;> cases hs
  | defer =>
    rw [State.watchStep, State.watchDefer] at hs
    constructor <;> intro hphase <;> rw [hphase] at hs <;> cases hs

/-- Outside `epoll.wait` the watcher can go on. -/
theorem State.watchStep_possible (hphase : s.watcher.phase ≠ .wait) :
    ∃ l, (∀ events, l ≠ .wait events) ∧ s.watchStep env l ≠ none := by
  cases h : s.watcher.phase with
  | wait => exact absurd h hphase
  | next =>
    refine ⟨.next, by simp, ?_⟩
    rw [State.watchStep, State.watchNext, h]
    cases s.watcher.events with
    | nil => exact Option.some_ne_none _
    | cons fd events =>
      dsimp only
      split <;> exact Option.some_ne_none _
  | reading p =>
    refine ⟨.read .eof, by simp, ?_⟩
    rw [State.watchStep, State.watchRead, h]
    exact Option.some_ne_none _
  | erasing p =>
    refine ⟨.erase, by simp, ?_⟩
    rw [State.watchStep, State.watchErase, h]
    exact Option.some_ne_none _
  | counting p =>
    refine ⟨.count, by simp, ?_⟩
    rw [State.watchStep, State.watchCount, h]
    exact Option.some_ne_none _
  | deferring p =>
    refine ⟨.defer, by simp, ?_⟩
    rw [State.watchStep, State.watchDefer, h]
    exact Option.some_ne_none _

/-! ## What it has to do -/

/-- The steps of the watcher until the next event: the reads, and what comes after them. -/
def WatcherPhase.work : WatcherPhase → Nat
  | wait => 1
  | next => 2
  | deferring _ => 3
  | counting _ => 4
  | erasing _ => 5
  | reading p => maxWsFrame + 1 - p.combinedBuffer.length + 6

/-- What an event costs at most. -/
def eventWork : Nat := maxWsFrame + 6

/-- What the watcher does at most from one `epoll.wait` to the next, both included. -/
def roundWork : Nat := 3 + eventWork * bufferCount.toNat

/-- The steps of the watcher until the next `epoll.wait`. -/
def SystemWatcher.work (w : SystemWatcher) : Nat := w.phase.work + eventWork * w.events.length

/-- Before `epoll.wait` there is the flag to test. -/
theorem SystemWatcher.work_pos (hphase : s.watcher.phase = .wait) : 0 < s.watcher.work := by
  rw [SystemWatcher.work, hphase, WatcherPhase.work]
  exact Nat.add_pos_left Nat.one_pos _

/-- A read is followed by fewer others. -/
theorem work_afterRead {p : Pass} {sock : Option Nat} {result : ReadResult}
    (hr : result.possible = true) :
    (State.afterRead (p.read ⟨sock, result⟩) result).work < (WatcherPhase.reading p).work := by
  cases result with
  | bytes buf =>
    have hpos : 0 < buf.length := by
      rw [ReadResult.possible, Bool.and_eq_true, Bool.not_eq_true'] at hr
      exact List.length_pos_of_ne_nil (List.isEmpty_eq_false_iff.mp hr.1)
    have hlen : (p.read ⟨sock, .bytes buf⟩).combinedBuffer.length =
        p.combinedBuffer.length + buf.length := List.length_append
    rw [State.afterRead]
    split
    · simp only [WatcherPhase.work]
      omega
    · rename_i hle
      simp only [WatcherPhase.work]
      omega
  | again => simp only [State.afterRead, WatcherPhase.work]; omega
  | eof => simp only [State.afterRead, WatcherPhase.work]; omega
  | error => simp only [State.afterRead, WatcherPhase.work]; omega

/-- **Every step of the watcher leaves less to do**, until it comes to `epoll.wait`. -/
theorem WatchMove.work_lt (hs : WatchMove env s t) (hwait : s.watcher.phase ≠ .wait) :
    t.watcher.work < s.watcher.work := by
  have hlt : ∀ {a b : WatcherPhase} {events : List Fd}, a.work < b.work →
      a.work + eventWork * events.length < b.work + eventWork * events.length :=
    fun h => Nat.add_lt_add_right h _
  rw [SystemWatcher.work, SystemWatcher.work]
  cases hs with
  | wait hphase => exact absurd hphase hwait
  | done hphase =>
    rw [hphase]
    exact hlt (Nat.lt_succ_self _)
  | skip hphase hevents =>
    rw [hevents, List.length_cons, Nat.mul_succ]
    simp only [eventWork]
    omega
  | @start fd events hphase hevents =>
    have hstart : (WatcherPhase.reading (Pass.start fd s.watcher.passes)).work < 2 + eventWork := by
      simp only [WatcherPhase.work, Pass.start, eventWork, List.length_nil]
      omega
    rw [hphase, hevents, List.length_cons, Nat.mul_succ]
    simp only [WatcherPhase.work] at hstart ⊢
    omega
  | read hphase hr =>
    rw [hphase]
    exact hlt (work_afterRead hr)
  | erase hphase =>
    rw [hphase]
    exact hlt (Nat.lt_succ_self _)
  | count hphase =>
    rw [hphase]
    exact hlt (Nat.lt_succ_self _)
  | defer hphase =>
    rw [hphase]
    exact hlt (Nat.lt_succ_self _)

/-- Until then no event is new, and none is done before its turn. -/
theorem WatchMove.mem_events (hs : WatchMove env s t) (hwait : s.watcher.phase ≠ .wait)
    (hnext : s.watcher.phase = .next → s.watcher.events.head? ≠ some env.pipes0) :
    env.pipes0 ∈ t.watcher.events ↔ env.pipes0 ∈ s.watcher.events := by
  cases hs with
  | wait hphase => exact absurd hphase hwait
  | skip hphase hevents => exact absurd (by rw [hevents]; rfl) (hnext hphase)
  | start _ hevents hne =>
    rw [hevents, List.mem_cons]
    exact (or_iff_right hne.symm).symm
  | _ => exact Iff.rfl

/-- `epoll.wait` gives it no more than it can give. -/
theorem work_wait {events : List Fd} (hs : s.step env (.watch (.wait events)) = some t) :
    t.watcher.events = events ∧ t.watcher.work < roundWork := by
  obtain ⟨⟨-, -, hlen, -⟩, hs⟩ := Option.ite_none_right_eq_some.mp hs
  obtain rfl := Option.some.inj hs
  have hmul := Nat.mul_le_mul_left eventWork hlen
  have hwork : 2 + eventWork * events.length < roundWork := by
    rw [roundWork]
    omega
  exact ⟨rfl, hwork⟩

end Woeful
