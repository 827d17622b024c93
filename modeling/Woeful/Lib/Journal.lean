import Mathlib.Data.List.Basic

/-!
# Journals

A journal is written before the work it tells of: an entry is added, the work is done
later, and entries whose work is not done yet are *pending*. `f` says what the work of an
entry comes to, so entries that stand for no work need not be pending.

What was done is what the journal says, in order, exactly if the work is done in the order
of the entries. `Settled` is the invariant of that, `Settled.commit` the step that needs
it, and once nothing is pending journal and work agree (`Settled.eq_of_not_pending`).
-/

namespace Journal

universe u v

variable {A : Type u} {B : Type v} {f : A → List B} {entries : List A}
  {pending pending' : Nat → Prop} {done : List B} {a : A} {j : Nat}

/-- Up to some entry the work is done, and came to `done`. From there on every entry that
stands for work is pending. -/
def Settled (f : A → List B) (entries : List A) (pending : Nat → Prop) (done : List B) : Prop :=
  ∃ cut ≤ entries.length, (entries.take cut).flatMap f = done ∧ (∀ j, pending j → cut ≤ j) ∧
    ∀ j a, cut ≤ j → entries[j]? = some a → f a ≠ [] → pending j

namespace Settled

/-- Entries that stand for no work. -/
theorem of_silent (hf : ∀ a ∈ entries, f a = []) (hnone : ∀ j, ¬ pending j) :
    Settled f entries pending [] := by
  refine ⟨entries.length, Nat.le_refl _, ?_, fun j hj => absurd hj (hnone j), ?_⟩
  · rw [List.take_length]
    exact List.flatMap_eq_nil_iff.mpr hf
  · intro j a hle ha
    exact absurd (List.getElem?_eq_some_iff.mp ha).1 (Nat.not_lt.mpr hle)

theorem congr (h : Settled f entries pending done) (hp : ∀ j, pending' j ↔ pending j) :
    Settled f entries pending' done := by
  obtain ⟨cut, hlen, hdone, hfrom, hrest⟩ := h
  refine ⟨cut, hlen, hdone, fun j hj => hfrom j ((hp j).mp hj), fun j a hle ha hne => ?_⟩
  exact (hp j).mpr (hrest j a hle ha hne)

/-- What was done is in the journal, in order. -/
theorem isPrefix (h : Settled f entries pending done) : done <+: entries.flatMap f := by
  obtain ⟨cut, -, rfl, -, -⟩ := h
  conv_rhs => rw [← List.take_append_drop cut entries, List.flatMap_append]
  exact List.prefix_append _ _

/-- **Journal and work agree** when nothing is pending. -/
theorem eq_of_not_pending (h : Settled f entries pending done) (hnone : ∀ j, ¬ pending j) :
    entries.flatMap f = done := by
  obtain ⟨cut, -, rfl, -, hrest⟩ := h
  have hdrop : (entries.drop cut).flatMap f = [] := by
    refine List.flatMap_eq_nil_iff.mpr fun a ha => ?_
    obtain ⟨i, hi⟩ := List.mem_iff_getElem?.mp ha
    rw [List.getElem?_drop] at hi
    by_contra hne
    exact hnone _ (hrest _ a (Nat.le_add_right _ _) hi hne)
  conv_lhs => rw [← List.take_append_drop cut entries, List.flatMap_append, hdrop]
  exact List.append_nil _

/-- An entry is made, and is pending if it stands for work. -/
theorem append (h : Settled f entries pending done) (hold : ∀ j, pending j → pending' j)
    (hnew : f a ≠ [] → pending' entries.length)
    (honly : ∀ j, pending' j → pending j ∨ j = entries.length) :
    Settled f (entries ++ [a]) pending' done := by
  obtain ⟨cut, hlen, hdone, hfrom, hrest⟩ := h
  refine ⟨cut, ?_, ?_, fun j hj => ?_, fun j b hle hb hne => ?_⟩
  · rw [List.length_append]
    exact Nat.le_add_right_of_le hlen
  · rwa [List.take_append_of_le_length hlen]
  · rcases honly j hj with hj | rfl
    · exact hfrom j hj
    · exact hlen
  · by_cases hj : j < entries.length
    · rw [List.getElem?_append_left hj] at hb
      exact hold j (hrest j b hle hb hne)
    · -- the new entry
      have hlt := (List.getElem?_eq_some_iff.mp hb).1
      rw [List.length_append] at hlt
      obtain rfl : j = entries.length := Nat.le_antisymm (Nat.le_of_lt_succ hlt) (Nat.not_lt.mp hj)
      rw [List.getElem?_concat_length] at hb
      obtain rfl := Option.some.inj hb
      exact hnew hne

/-- Entries are made that stand for no work. -/
theorem append_silent {es : List A} (hf : ∀ a ∈ es, f a = [])
    (h : Settled f entries pending done) : Settled f (entries ++ es) pending done := by
  induction es generalizing entries with
  | nil => rwa [List.append_nil]
  | cons a es ih =>
    have hentry : Settled f (entries ++ [a]) pending done :=
      h.append (fun _ hj => hj) (absurd (hf a (List.mem_cons_self ..))) fun _ hj => Or.inl hj
    have hrest := ih (fun b hb => hf b (List.mem_cons_of_mem _ hb)) hentry
    rwa [List.append_assoc] at hrest

/-- **The work of the first pending entry is done.** -/
theorem commit (h : Settled f entries pending done) (hj : pending j) (ha : entries[j]? = some a)
    (hfirst : ∀ j', pending' j' → j < j') (hrest' : ∀ j', pending j' → j' = j ∨ pending' j') :
    Settled f entries pending' (done ++ f a) := by
  obtain ⟨cut, hlen, rfl, hfrom, hrest⟩ := h
  have hlt := (List.getElem?_eq_some_iff.mp ha).1
  refine ⟨j + 1, hlt, ?_, hfirst, fun j' b hle hb hne => ?_⟩
  · -- between the cut and the entry there is no work
    have hbetween : ((entries.take j).drop cut).flatMap f = [] := by
      refine List.flatMap_eq_nil_iff.mpr fun b hb => ?_
      obtain ⟨i, hi⟩ := List.mem_iff_getElem?.mp hb
      rw [List.getElem?_drop, List.getElem?_take] at hi
      split at hi
      · rename_i hij
        by_contra hne
        rcases hrest' _ (hrest _ b (Nat.le_add_right _ _) hi hne) with heq | hp
        · exact absurd heq (Nat.ne_of_lt hij)
        · exact absurd (hfirst _ hp) (Nat.lt_asymm hij)
      · cases hi
    have htake : entries.take j = entries.take cut ++ (entries.take j).drop cut := by
      conv_lhs => rw [← List.take_append_drop cut (entries.take j), List.take_take,
        Nat.min_eq_left (hfrom j hj)]
    rw [List.take_add_one, ha, htake, List.flatMap_append, List.flatMap_append, hbetween,
      List.append_nil]
    exact congrArg _ (List.flatMap_singleton ..)
  · rcases hrest' j' (hrest j' b (Nat.le_trans (hfrom j hj) (Nat.le_of_succ_le hle)) hb hne) with
      rfl | hp
    · exact absurd hle (Nat.not_succ_le_self _)
    · exact hp

end Settled

end Journal
