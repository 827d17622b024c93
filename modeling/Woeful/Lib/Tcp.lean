import Mathlib.Algebra.Group.Nat.Defs
import Mathlib.Data.List.Induction
import Woeful.Lib.Log

/-!
# Sequence numbers

A TCP conversation is recorded as its segments, in order. Each side numbers what it sends
modulo `2^32`, from an initial number of its own; a SYN takes a number, as a byte does. A segment
begins where its side has got to, and acknowledges what the other side has got to
(`Numbered`). If that is so throughout the record (`Conversation`), the segments of a side follow
each other without a gap (`Conversation.isChain`), do not overlap (`Conversation.disjoint`) and
reassemble to what was sent (`Conversation.reassemble_sentBy`), past the wrap as well.
-/

namespace Tcp

universe u

/-- The two sides. -/
inductive Side where
  /-- the side that opens the connection -/
  | client
  /-- the side that accepts it -/
  | server
  deriving DecidableEq, Repr

/-- The side across. -/
def Side.other : Side → Side
  | client => server
  | server => client

/-- A segment. -/
structure Segment (β : Type u) where
  /-- who sent it -/
  sender : Side
  /-- the SYN flag -/
  syn : Bool
  /-- the ACK flag -/
  ack : Bool
  /-- the sequence number -/
  seq : UInt32
  /-- the acknowledgement number -/
  ackNumber : UInt32
  /-- the payload -/
  data : List β
  deriving DecidableEq, Repr

variable {β : Type u} {isn : Side → UInt32} {side : Side} {segs segs' : List (Segment β)}
  {s : Segment β}

/-- How many numbers a segment takes. -/
def Segment.span (s : Segment β) : Nat := s.syn.toNat + s.data.length

/-- The segments of one side. -/
def sentBy (side : Side) (segs : List (Segment β)) : List (Segment β) :=
  segs.filter (·.sender = side)

/-- What one side has sent. -/
def payload (side : Side) (segs : List (Segment β)) : List β := (sentBy side segs).flatMap (·.data)

/-- How many numbers the segments take. -/
def spanned : List (Segment β) → Nat
  | [] => 0
  | s :: segs => s.span + spanned segs

/-- The number a side has got to. -/
def next (isn : Side → UInt32) (side : Side) (segs : List (Segment β)) : UInt32 :=
  isn side + UInt32.ofNat (spanned (sentBy side segs))

/-- A segment has the numbers it is to have after the segments `before` it. -/
structure Numbered (isn : Side → UInt32) (before : List (Segment β)) (s : Segment β) : Prop where
  /-- it begins where its side has got to -/
  seq : s.seq = next isn s.sender before
  /-- it acknowledges what the other side has got to -/
  ackNumber : s.ack = true → s.ackNumber = next isn s.sender.other before

/-- A record all of whose segments have the numbers they are to have. -/
abbrev Conversation (isn : Side → UInt32) (segs : List (Segment β)) : Prop :=
  Log.Throughout (Numbered isn) segs

/-- What a receiver makes of the segments of a side: it takes those that begin where it
expects them to. -/
def reassemble : UInt32 → List (Segment β) → Option (List β)
  | _, [] => some []
  | expected, s :: segs =>
    if s.seq = expected then
      (reassemble (expected + UInt32.ofNat s.span) segs).map (s.data ++ ·)
    else none

/-! ## One segment more -/

@[simp] theorem spanned_append : spanned (segs ++ segs') = spanned segs + spanned segs' := by
  induction segs with
  | nil => simp [spanned]
  | cons s segs ih => simp [spanned, ih, Nat.add_assoc]

@[simp] theorem spanned_singleton : spanned [s] = s.span := by
  simp [spanned]

@[simp] theorem sentBy_append :
    sentBy side (segs ++ segs') = sentBy side segs ++ sentBy side segs' :=
  List.filter_append ..

theorem sentBy_singleton (h : s.sender = side) : sentBy side [s] = [s] := by
  simp [sentBy, h]

theorem sentBy_singleton_ne (h : s.sender ≠ side) : sentBy side [s] = [] := by
  simp [sentBy, h]

theorem payload_append :
    payload side (segs ++ segs') = payload side segs ++ payload side segs' := by
  rw [payload, sentBy_append, List.flatMap_append]
  rfl

theorem payload_singleton (h : s.sender = side) : payload side [s] = s.data := by
  simp [payload, sentBy_singleton h]

theorem payload_singleton_ne (h : s.sender ≠ side) : payload side [s] = [] := by
  simp [payload, sentBy_singleton_ne h]

theorem ofNat_add (m n : Nat) (a : UInt32) :
    a + UInt32.ofNat (m + n) = a + UInt32.ofNat m + UInt32.ofNat n := by
  rw [UInt32.ofNat_add, UInt32.add_assoc]

/-- Without a SYN, segments take as many numbers as they have bytes. -/
theorem spanned_eq_length (h : ∀ s ∈ segs, s.syn = false) :
    spanned (sentBy side segs) = (payload side segs).length := by
  have hsent : ∀ s ∈ sentBy side segs, s.syn = false := fun s hs => h s (List.mem_filter.mp hs).1
  rw [payload]
  generalize sentBy side segs = sent at hsent
  induction sent with
  | nil => rfl
  | cons s sent ih =>
    rw [List.forall_mem_cons] at hsent
    simp [spanned, Segment.span, hsent.1, ih hsent.2]

/-- What comes after more segments. -/
theorem next_append : next isn side (segs ++ segs') =
    next isn side segs + UInt32.ofNat (spanned (sentBy side segs')) := by
  rw [next, sentBy_append, spanned_append, ofNat_add]
  rfl

/-- A receiver takes the segments in parts. -/
theorem reassemble_append {expected : UInt32} {bs : List β}
    (h : reassemble expected segs = some bs) :
    reassemble expected (segs ++ segs') =
      (reassemble (expected + UInt32.ofNat (spanned segs)) segs').map (bs ++ ·) := by
  induction segs generalizing expected bs with
  | nil =>
    obtain rfl := Option.some.inj h
    simp [spanned]
  | cons s segs ih =>
    rw [reassemble] at h
    split_ifs at h with hseq
    obtain ⟨cs, hcs, rfl⟩ := Option.map_eq_some_iff.mp h
    have hspan : spanned (s :: segs) = s.span + spanned segs := rfl
    rw [List.cons_append, reassemble, if_pos hseq, ih hcs, hspan, ofNat_add, Option.map_map]
    congr 1
    funext ds
    exact (List.append_assoc ..).symm

/-- What a receiver takes follows on without a gap. -/
theorem isChain_of_reassemble {expected : UInt32} {bs : List β}
    (h : reassemble expected segs = some bs) :
    segs.IsChain fun s s' => s'.seq = s.seq + UInt32.ofNat s.span := by
  induction segs generalizing expected bs with
  | nil => exact .nil
  | cons s segs ih =>
    rw [reassemble] at h
    split_ifs at h with hseq
    obtain ⟨cs, hcs, -⟩ := Option.map_eq_some_iff.mp h
    cases segs with
    | nil => exact .singleton s
    | cons s' segs =>
      refine .cons_cons ?_ (ih hcs)
      rw [reassemble] at hcs
      split_ifs at hcs with hseq'
      rw [hseq', hseq]

/-! ## Conversations -/

/-- The segments of a side reassemble to what it sent. -/
theorem Conversation.reassemble_sentBy (h : Conversation isn segs) :
    reassemble (isn side) (sentBy side segs) = some (payload side segs) := by
  induction segs using List.reverseRecOn with
  | nil => rfl
  | append_singleton segs s ih =>
    rw [sentBy_append, payload_append]
    by_cases hside : s.sender = side
    · have hseq : s.seq = isn side + UInt32.ofNat (spanned (sentBy side segs)) :=
        hside ▸ h.last.seq
      rw [reassemble_append (ih h.init), sentBy_singleton hside, payload_singleton hside,
        reassemble, if_pos hseq]
      simp [reassemble]
    · rw [sentBy_singleton_ne hside, payload_singleton_ne hside, List.append_nil, List.append_nil]
      exact ih h.init

/-- The segments of a side follow each other without a gap. -/
theorem Conversation.isChain (h : Conversation isn segs) :
    (sentBy side segs).IsChain fun s s' => s'.seq = s.seq + UInt32.ofNat s.span :=
  isChain_of_reassemble h.reassemble_sentBy

/-- Two segments of a side have no number in common, unless one is a whole round of numbers
after the other. -/
theorem Conversation.disjoint {before between after : List (Segment β)} {s' : Segment β}
    (h : Conversation isn segs) (hsplit : segs = before ++ s :: between ++ s' :: after)
    (hsender : s'.sender = s.sender)
    (hround : spanned (sentBy s.sender (s :: between)) + s'.span ≤ 2 ^ 32)
    {i j : Nat} (hi : i < s.span) (hj : j < s'.span) :
    s.seq + UInt32.ofNat i ≠ s'.seq + UInt32.ofNat j := by
  have hs : s.seq = next isn s.sender before :=
    (h before s (between ++ s' :: after) (by rw [hsplit, List.append_assoc]; rfl)).seq
  have hs' : s'.seq = next isn s.sender before +
      UInt32.ofNat (spanned (sentBy s.sender (s :: between))) := by
    rw [(h _ s' after hsplit).seq, hsender, next_append]
  have hspan : s.span ≤ spanned (sentBy s.sender (s :: between)) := by
    rw [← List.singleton_append, sentBy_append, sentBy_singleton rfl, spanned_append,
      spanned_singleton]
    exact Nat.le_add_right ..
  generalize spanned (sentBy s.sender (s :: between)) = k at hround hs' hspan
  intro heq
  rw [hs, hs', UInt32.add_assoc, ← UInt32.ofNat_add, UInt32.add_right_inj] at heq
  have hsize : UInt32.size = 2 ^ 32 := rfl
  have hi' : (UInt32.ofNat i).toNat = i := UInt32.toNat_ofNat_of_lt' (by omega)
  have hj' : (UInt32.ofNat (k + j)).toNat = k + j := UInt32.toNat_ofNat_of_lt' (by omega)
  rw [heq] at hi'
  omega

end Tcp
