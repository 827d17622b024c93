import Woeful.Codec
import Woeful.Steps

/-!
# The read loop

The inner loop of `watch` reads from a descriptor until there is nothing more, until the
stream is over, or until it has read more than `MAX_WS_FRAME` bytes. It has no bound of its
own, but every turn that goes on adds a byte at least (`readLoop` is total for that
reason), and the last one adds a segment at most, so the frame that is sent in the end fits
(`readLoop_reads`).

`SystemWatcher::watch` takes this loop one `read` a step; that it computes the same is
`run_readLoop`.
-/

namespace Woeful

open Memory Transition

/-- What `read` may answer. -/
abbrev PossibleRead : Type := { result : ReadResult // result.possible = true }

/-- A read brings between one byte and a segment. -/
theorem PossibleRead.length_bytes {buf : Bytes} (h : (ReadResult.bytes buf).possible = true) :
    0 < buf.length ∧ buf.length ≤ segmentSize := by
  rw [ReadResult.possible, Bool.and_eq_true, decide_eq_true_eq] at h
  exact ⟨by simpa [List.length_pos_iff] using h.1, h.2⟩

/-- What the read loop leaves behind. -/
structure ReadEnd where
  /-- `combined_buffer` -/
  combinedBuffer : Bytes
  /-- `to_close` -/
  toClose : Bool
  /-- the number of the last read, from 0 (history) -/
  last : Nat
  deriving DecidableEq, Repr

/-- The inner loop of `watch`, from read number `i` on. -/
def readLoop (results : Nat → PossibleRead) (i : Nat) (combinedBuffer : Bytes) : ReadEnd :=
  match results i with
  | ⟨.eof, _⟩ => ⟨combinedBuffer, true, i⟩
  | ⟨.again, _⟩ => ⟨combinedBuffer, false, i⟩
  | ⟨.error, _⟩ => ⟨combinedBuffer, true, i⟩
  | ⟨.bytes buf, _hbuf⟩ =>
    if (combinedBuffer ++ buf).length > maxWsFrame then ⟨combinedBuffer ++ buf, false, i⟩
    else readLoop results (i + 1) (combinedBuffer ++ buf)
termination_by maxWsFrame + 1 - combinedBuffer.length
decreasing_by
  have hpos := (PossibleRead.length_bytes _hbuf).1
  rw [List.length_append] at *
  omega

/-- The bytes of the first `n` reads. -/
def bytesRead (results : Nat → PossibleRead) (n : Nat) : Bytes :=
  (List.range n).flatMap fun i => (results i).1.data

/-- The loop ends with read number `i`: it found nothing, the end or an error, or what was
read has become more than `MAX_WS_FRAME`. -/
def StopsAt (results : Nat → PossibleRead) (i : Nat) : Prop :=
  (results i).1 = .again ∨ (results i).1.closes = true ∨
    maxWsFrame < (bytesRead results (i + 1)).length

/-- The loop does what it should with these answers. -/
structure ReadsOut (results : Nat → PossibleRead) (e : ReadEnd) : Prop where
  /-- it ends -/
  ends : e.last ≤ maxWsFrame
  /-- the buffer is what was read, in order -/
  combined : e.combinedBuffer = bytesRead results (e.last + 1)
  /-- the stream is closed if the last read says so -/
  toClose : e.toClose = (results e.last).1.closes
  /-- there is a reason to stop -/
  stops : StopsAt results e.last
  /-- and there was none before -/
  first : ∀ i < e.last, ¬ StopsAt results i
  /-- the frame that is sent is not too long -/
  fits : ∀ streamId, (WispPacket.serialize ⟨packetData, streamId, e.combinedBuffer⟩).length ≤
    maxPossibleWsFrame

variable {results : Nat → PossibleRead}

theorem bytesRead_succ (results : Nat → PossibleRead) (n : Nat) :
    bytesRead results (n + 1) = bytesRead results n ++ (results n).1.data := by
  simp [bytesRead, List.range_succ]

/-- What holds at the head of the loop, before read number `i`. -/
structure Going (results : Nat → PossibleRead) (i : Nat) (buf : Bytes) : Prop where
  /-- the buffer is what was read -/
  combined : buf = bytesRead results i
  /-- nothing was a reason to stop -/
  going : ∀ j < i, ¬ StopsAt results j
  /-- every read brought a byte -/
  le : i ≤ buf.length
  /-- they are not too many yet -/
  small : buf.length ≤ maxWsFrame

theorem Going.start : Going results 0 [] :=
  ⟨rfl, fun _ hj => absurd hj (Nat.not_lt_zero _), Nat.le_refl _, Nat.zero_le _⟩

/-- The loop ends here. -/
theorem Going.stop {i : Nat} {buf : Bytes} {e : ReadEnd} (h : Going results i buf)
    (hlast : e.last = i) (hcombined : e.combinedBuffer = buf ++ (results i).1.data)
    (hclose : e.toClose = (results i).1.closes) (hstop : StopsAt results i)
    (hlen : (results i).1.data.length ≤ segmentSize) : ReadsOut results e where
  ends := by
    have hle := h.le
    have hsmall := h.small
    omega
  combined := by rw [hcombined, hlast, bytesRead_succ, h.combined]
  toClose := by rw [hclose, hlast]
  stops := hlast ▸ hstop
  first j hj := h.going j (hlast ▸ hj)
  fits streamId := by
    have hsmall : buf.length ≤ 63 * 1000000 := h.small
    have hlen : (results i).1.data.length ≤ 1024 * 20 := hlen
    rw [WispPacket.length_serialize, hcombined, List.length_append]
    change 5 + (buf.length + (results i).1.data.length) ≤ 64 * 1000000
    omega

/-- The loop goes on. -/
theorem Going.next {i : Nat} {buf data : Bytes} (h : Going results i buf)
    (hresult : (results i).1 = .bytes data) (hdata : 0 < data.length)
    (hsmall : (buf ++ data).length ≤ maxWsFrame) : Going results (i + 1) (buf ++ data) where
  combined := by rw [bytesRead_succ, hresult, ← h.combined]; rfl
  going j hj := by
    rcases Nat.lt_succ_iff_lt_or_eq.mp hj with hlt | rfl
    · exact h.going j hlt
    · rw [StopsAt, bytesRead_succ, hresult, ← h.combined]
      rintro (hagain | hclose | hbig)
      · cases hagain
      · cases hclose
      · exact Nat.lt_irrefl _ (Nat.lt_of_lt_of_le hbig hsmall)
  le := by
    have hle := h.le
    rw [List.length_append]
    omega
  small := hsmall

/-- **The loop, from any of its turns on.** -/
theorem readLoop_of_going {i : Nat} {buf : Bytes} (h : Going results i buf) :
    ReadsOut results (readLoop results i buf) := by
  fun_induction readLoop results i buf with
  | case1 i buf _ hresult | case3 i buf _ hresult =>
    refine h.stop rfl ?_ ?_ (Or.inr (Or.inl ?_)) ?_ <;> rw [hresult]
    · exact (List.append_nil buf).symm
    · rfl
    · rfl
    · exact Nat.zero_le _
  | case2 i buf _ hresult =>
    refine h.stop rfl ?_ ?_ (Or.inl ?_) ?_ <;> rw [hresult]
    · exact (List.append_nil buf).symm
    · rfl
    · exact Nat.zero_le _
  | case4 i buf data hdata hresult hbig =>
    refine h.stop rfl ?_ ?_ (Or.inr (Or.inr ?_)) ?_
    · rw [hresult]
      rfl
    · rw [hresult]
      rfl
    · rw [bytesRead_succ, hresult, ← h.combined]
      exact hbig
    · rw [hresult]
      exact (PossibleRead.length_bytes hdata).2
  | case5 i buf data hdata hresult hsmall ih =>
    exact ih (h.next (congrArg Subtype.val hresult) (PossibleRead.length_bytes hdata).1
      (Nat.le_of_not_lt hsmall))

/-- **The read loop reads what is there**, stops when it should, and what it read fits into
a frame. -/
theorem readLoop_reads (results : Nat → PossibleRead) :
    ReadsOut results (readLoop results 0 []) :=
  readLoop_of_going .start

/-! ## The loop, step by step -/

theorem le_last_readLoop (i : Nat) (buf : Bytes) : i ≤ (readLoop results i buf).last := by
  fun_induction readLoop results i buf with
  | case5 i buf data hdata hresult hsmall ih => exact Nat.le_of_succ_le ih
  | _ => exact Nat.le_refl _

/-- The reads number `i` to `last` of the watcher. -/
def readLabels (results : Nat → PossibleRead) (i last : Nat) : List Label :=
  (List.range' i (last + 1 - i)).map fun j => .watch (.read (results j).1)

theorem readLabels_self (results : Nat → PossibleRead) (i : Nat) :
    readLabels results i i = [.watch (.read (results i).1)] := by
  simp [readLabels]

theorem readLabels_cons {i last : Nat} (h : i + 1 ≤ last) :
    readLabels results i last =
      .watch (.read (results i).1) :: readLabels results (i + 1) last := by
  have hlen : last + 1 - i = last + 1 - (i + 1) + 1 := by omega
  rw [readLabels, hlen, List.range'_succ, List.map_cons]
  rfl

/-- Where the watcher goes when the loop is over. -/
def ReadEnd.next (e : ReadEnd) (p : Pass) : WatcherPhase :=
  if e.toClose then .erasing p else .counting p

/-- The watcher has read out: it is done with the pass `p`, and carries what the loop left. -/
structure ReadOut (e : ReadEnd) (fd : Fd) (t : State) (p : Pass) : Prop where
  /-- it leaves the loop -/
  phase : t.watcher.phase = e.next p
  /-- for the same descriptor -/
  fd : p.fd = fd
  /-- with what was read -/
  combined : p.combinedBuffer = e.combinedBuffer
  /-- and the flag -/
  toClose : p.toClose = e.toClose

/-- A read, answered by what the descriptor stands for. -/
def State.reading (s : State) (p : Pass) (result : ReadResult) : State :=
  (s.setPhase (State.afterRead (p.read ⟨s.kernel.sockAt p.fd, result⟩) result)).record
    (.read p.fd ⟨s.kernel.sockAt p.fd, result⟩)

theorem step_watchRead {env : Env} {s : State} {p : Pass} (hphase : s.watcher.phase = .reading p)
    (result : PossibleRead) :
    (server env).step s (.watch (.read result.1)) = some (s.reading p result.1) := by
  change s.watchRead result.1 = _
  rw [State.watchRead, hphase]
  exact if_pos result.2

/-- The last read of the loop. -/
theorem run_lastRead {env : Env} {s : State} {p q : Pass} {i : Nat} {e : ReadEnd}
    (hphase : s.watcher.phase = .reading p)
    (hq : q = p.read ⟨s.kernel.sockAt p.fd, (results i).1⟩)
    (hafter : State.afterRead q (results i).1 = e.next q)
    (hcombined : q.combinedBuffer = e.combinedBuffer) (hclose : q.toClose = e.toClose) :
    ∃ t q, (server env).Run (fun _ _ => True) s (readLabels results i i) t ∧
      ReadOut e p.fd t q := by
  subst hq
  refine ⟨s.reading p (results i).1, _, ?_, ⟨hafter, rfl, hcombined, hclose⟩⟩
  rw [readLabels_self]
  exact .cons trivial (step_watchRead hphase (results i)) (.nil _)

/-- **The watcher takes the loop**, one read a step. -/
theorem run_readLoop {env : Env} {s : State} {p : Pass} {i : Nat} {buf : Bytes}
    (hphase : s.watcher.phase = .reading p) (hbuf : p.combinedBuffer = buf)
    (hclose : p.toClose = false) :
    ∃ t q, (server env).Run (fun _ _ => True) s
        (readLabels results i (readLoop results i buf).last) t ∧
      ReadOut (readLoop results i buf) p.fd t q := by
  fun_induction readLoop results i buf generalizing s p with
  | case1 i buf _ hresult | case2 i buf _ hresult | case3 i buf _ hresult =>
    refine run_lastRead hphase rfl ?_ ?_ ?_ <;> rw [hresult]
    · rfl
    · simp [Pass.read, hbuf, ReadResult.data]
    · simp [Pass.read, hclose, ReadResult.closes]
  | case4 i buf data _ hresult hbig =>
    refine run_lastRead hphase rfl ?_ ?_ ?_ <;> rw [hresult]
    · rw [← hbuf] at hbig
      exact if_pos hbig
    · simp [Pass.read, hbuf, ReadResult.data]
    · simp [Pass.read, hclose, ReadResult.closes]
  | case5 i buf data hdata hresult hsmall ih =>
    have hread := @step_watchRead env _ _ hphase (results i)
    rw [hresult] at hread
    have hnext : (s.reading p (.bytes data)).watcher.phase =
        .reading (p.read ⟨s.kernel.sockAt p.fd, .bytes data⟩) := by
      rw [← hbuf] at hsmall
      exact if_neg hsmall
    obtain ⟨t, q, hrun, hout⟩ := ih hnext (by simp [Pass.read, hbuf, ReadResult.data])
      (by simp [Pass.read, hclose, ReadResult.closes])
    refine ⟨t, q, ?_, hout⟩
    rw [readLabels_cons (le_last_readLoop (i + 1) (buf ++ data)), hresult]
    exact .cons trivial hread hrun

end Woeful
