/-!
# Flow control by a window

A sender may send as many packets as it has *credit*; the receiver counts down a
*buffer* of its own and, when that reaches 0, fills it again and grants the sender
a whole window. Packets and grants travel on two asynchronous channels, so the two
counters are never compared; what ties them together is what is under way
(`Balanced.balance`), and it follows that the receiver's counter never underflows
(`Balanced.buffer_pos`) and that at most one grant is under way
(`Balanced.grants_le_one`).

`Metered` is the same link in the log of the receiver: over any stretch of time it took
at most a window, and a window more for each grant, whatever became of the packets since.
-/

namespace Window

universe u

/-- The two counters, and what is under way between them. -/
structure Link where
  /-- the packets the sender may send -/
  credit : Nat
  /-- the packets on their way to the receiver -/
  data : Nat
  /-- the grants on their way to the sender -/
  grants : Nat
  /-- the packets the receiver will take before it grants the next window -/
  buffer : Nat

/-- What can happen to a link with windows of size `W`. -/
inductive Step (W : Nat) : Link → Link → Prop where
  /-- the sender sends a packet -/
  | send {c d g b : Nat} : Step W ⟨c + 1, d, g, b⟩ ⟨c, d + 1, g, b⟩
  /-- the receiver takes a packet -/
  | receive {c d g b : Nat} : Step W ⟨c, d + 1, g, b⟩ ⟨c, d, g, b - 1⟩
  /-- the receiver grants a window -/
  | renew {c d g : Nat} : Step W ⟨c, d, g, 0⟩ ⟨c, d, g + 1, W⟩
  /-- the sender takes a grant -/
  | grant {c d g b : Nat} : Step W ⟨c, d, g + 1, b⟩ ⟨W, d, g, b⟩

/-- Nothing is lost between the counters. -/
structure Balanced (W : Nat) (l : Link) : Prop where
  /-- the receiver expects what the sender may send, what it has sent, and what it
  was granted -/
  balance : l.buffer = l.credit + l.data + W * l.grants
  /-- and never more than a window -/
  bounded : l.buffer ≤ W

variable {W : Nat} {l l' : Link}

/-- At most one grant is under way. -/
theorem Balanced.grants_le_one (h : Balanced W l) (hW : 0 < W) : l.grants ≤ 1 := by
  have hmul : W * l.grants ≤ W * 1 := by
    have := h.balance
    have := h.bounded
    omega
  exact Nat.le_of_mul_le_mul_left hmul hW

/-- The receiver's counter is positive when a packet arrives. -/
theorem Balanced.buffer_pos (h : Balanced W l) (hd : 0 < l.data) : 0 < l.buffer := by
  have := h.balance
  omega

/-- When a grant is under way, the sender is waiting for it. -/
theorem Balanced.credit_eq_zero (h : Balanced W l) (hg : 0 < l.grants) :
    l.credit = 0 ∧ l.data = 0 := by
  obtain ⟨hbalance, hbounded⟩ := h
  have hmul : W * 1 ≤ W * l.grants := Nat.mul_le_mul_left W hg
  omega

/-- **Every step keeps the balance.** -/
theorem Balanced.step (h : Balanced W l) (hs : Step W l l') : Balanced W l' := by
  obtain ⟨hbalance, hbounded⟩ := h
  cases hs with
  | send =>
    constructor
    · simp only at hbalance ⊢
      omega
    · exact hbounded
  | receive =>
    constructor
    · simp only at hbalance ⊢
      omega
    · exact Nat.le_trans (Nat.sub_le _ _) hbounded
  | @renew c d g =>
    simp only at hbalance
    constructor
    · simp only [Nat.mul_succ]
      omega
    · exact Nat.le_refl W
  | @grant c d g b =>
    have hzero := Balanced.credit_eq_zero ⟨hbalance, hbounded⟩ (Nat.succ_pos g)
    simp only [Nat.mul_succ] at hbalance hzero
    constructor
    · simp only
      omega
    · exact hbounded

/-! ## Over a stretch of time -/

/-- Since any moment, the packets that were taken (`f`) and the ones that may still be, `b`,
are at most a window, and one more for each grant (`g`). -/
def Metered {ε : Type u} (f g : ε → Bool) (W b : Nat) (log : List ε) : Prop :=
  ∀ before after, log = before ++ after → after.countP f + b ≤ W * (1 + after.countP g)

namespace Metered

variable {ε : Type u} {f g : ε → Bool} {b b' : Nat} {log es : List ε}

/-- Nothing was taken yet. -/
theorem of_untouched (h : log.countP f = 0) : Metered f g W W log := by
  rintro before after rfl
  rw [List.countP_append] at h
  have hafter : after.countP f = 0 := Nat.eq_zero_of_add_eq_zero_left h
  rw [hafter, Nat.zero_add]
  exact Nat.le_mul_of_pos_right W (Nat.add_pos_left Nat.one_pos _)

theorem mono (h : Metered f g W b log) (hb : b' ≤ b) : Metered f g W b' log :=
  fun before after hlog => Nat.le_trans (Nat.add_le_add_left hb _) (h before after hlog)

/-- **Every step keeps the meter** that takes packets first and then grants. -/
theorem append (h : Metered f g W b log) (hfirst : es.tail.countP f = 0) (hW : b' ≤ W)
    (hsum : es.countP f + b' ≤ b + W * es.countP g) : Metered f g W b' (log ++ es) := by
  -- the stretch begins before this step
  have hbefore : ∀ before after, log = before ++ after →
      (after ++ es).countP f + b' ≤ W * (1 + (after ++ es).countP g) := by
    intro before after hlog
    have hold := h before after hlog
    rw [List.countP_append, List.countP_append, ← Nat.add_assoc, Nat.mul_add W (1 + _)]
    omega
  intro before after hlog
  rcases List.append_eq_append_iff.mp hlog with ⟨es₁, rfl, rfl⟩ | ⟨after', rfl, rfl⟩
  · cases es₁ with
    | nil => simpa using hbefore log [] (List.append_nil log).symm
    | cons e es₁ =>
      -- or in the middle of it
      rw [List.cons_append, List.tail_cons, List.countP_append] at hfirst
      have hafter : after.countP f = 0 := Nat.eq_zero_of_add_eq_zero_left hfirst
      rw [hafter, Nat.zero_add]
      exact Nat.le_trans hW (Nat.le_mul_of_pos_right W (Nat.add_pos_left Nat.one_pos _))
  · exact hbefore before after' rfl

end Metered

end Window
