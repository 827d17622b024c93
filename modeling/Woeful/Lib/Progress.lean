import Mathlib.Order.WellFounded
import Woeful.Lib.Run

/-!
# Runs that come to an end

A *measure* is a number that some steps decrease and no step increases. It bounds how
often the former are taken, whatever comes between them (`Run.countP_le`), and there is a
surcharge for the steps that do increase it (`Run.countP_le_add`). Where every step that a guard
admits decreases it, guarded runs come to *rest*: a state from which no guarded step is
possible (`exists_rest`).
-/

namespace Transition

namespace System

universe u v

variable {σ : Type u} {α : Type v} {M : System σ α} {guard guard' : σ → α → Prop} {s t : σ}
  {as : List α}

variable (M) in
/-- No step that the guard admits is possible. -/
def AtRest (guard : σ → α → Prop) (s : σ) : Prop := ∀ a, guard s a → M.step s a = none

theorem AtRest.mono (h : M.AtRest guard s) (hle : ∀ a, guard' s a → guard s a) :
    M.AtRest guard' s := fun a hg => h a (hle a hg)

/-- **A measure bounds the steps that decrease it**, where others may raise it by so much. -/
theorem Run.countP_le_add {μ : σ → Nat} {p q : α → Bool} {c : Nat} {I : σ → Prop}
    (hkeep : ∀ s a t, guard s a → M.step s a = some t → I s → I t)
    (hdec : ∀ s a t, guard s a → M.step s a = some t → I s → p a = true → q a = false → μ t < μ s)
    (hle : ∀ s a t, guard s a → M.step s a = some t → I s → p a = false → μ t ≤ μ s)
    (hadd : ∀ s a t, guard s a → M.step s a = some t → I s → q a = true → μ t < μ s + c)
    (h : M.Run guard s as t) (hs : I s) : as.countP p + μ t ≤ μ s + as.countP q * c := by
  induction h with
  | nil s => simp
  | @cons s t u a as hg hst _ ih =>
    have hrest := ih (hkeep _ _ _ hg hst hs)
    rw [List.countP_cons, List.countP_cons, Nat.add_mul]
    cases hq : q a with
    | true =>
      have hlt := hadd _ _ _ hg hst hs hq
      have hone : (if p a = true then 1 else 0) ≤ 1 := by split <;> omega
      rw [if_pos rfl, Nat.one_mul]
      omega
    | false =>
      rw [if_neg Bool.false_ne_true, Nat.zero_mul, Nat.add_zero]
      cases hp : p a with
      | true =>
        have hlt := hdec _ _ _ hg hst hs hp hq
        rw [if_pos rfl]
        omega
      | false =>
        have hle := hle _ _ _ hg hst hs hp
        rw [if_neg Bool.false_ne_true]
        omega

/-- No step may raise it. -/
theorem Run.countP_le {μ : σ → Nat} {p : α → Bool} {I : σ → Prop}
    (hkeep : ∀ s a t, guard s a → M.step s a = some t → I s → I t)
    (hdec : ∀ s a t, guard s a → M.step s a = some t → I s → p a = true → μ t < μ s)
    (hle : ∀ s a t, guard s a → M.step s a = some t → I s → p a = false → μ t ≤ μ s)
    (h : M.Run guard s as t) (hs : I s) : as.countP p + μ t ≤ μ s := by
  have hcount := h.countP_le_add (q := fun _ => false) (c := 0) hkeep
    (fun s a t hg hst hi hp _ => hdec s a t hg hst hi hp) hle (fun _ _ _ _ _ _ hq => nomatch hq) hs
  rwa [Nat.mul_zero, Nat.add_zero] at hcount

/-- Where every step decreases the measure, a run is no longer than it. -/
theorem Run.length_le {μ : σ → Nat}
    (hdec : ∀ s a t, guard s a → M.step s a = some t → μ t < μ s)
    (h : M.Run guard s as t) : as.length + μ t ≤ μ s := by
  have hcount := h.countP_le (p := fun _ => true) (I := fun _ => True) (fun _ _ _ _ _ _ => trivial)
    (fun s a t hg hst _ _ => hdec s a t hg hst) (fun _ _ _ _ _ _ hp => nomatch hp) trivial
  rwa [List.countP_true] at hcount

/-- **A run that goes on as long as it can comes to rest.** -/
theorem exists_rest {μ : σ → Nat} (hdec : ∀ s a t, guard s a → M.step s a = some t → μ t < μ s)
    (s : σ) : ∃ as t, M.Run guard s as t ∧ M.AtRest guard t := by
  induction hn : μ s using Nat.strong_induction_on generalizing s with
  | h n ih =>
    subst hn
    by_cases hrest : M.AtRest guard s
    · exact ⟨[], s, .nil s, hrest⟩
    · rw [AtRest] at hrest
      push Not at hrest
      obtain ⟨a, hg, hne⟩ := hrest
      obtain ⟨t, hst⟩ := Option.ne_none_iff_exists'.mp hne
      obtain ⟨as, u, hrun, hu⟩ := ih _ (hdec _ _ _ hg hst) t rfl
      exact ⟨a :: as, u, .cons hg hst hrun, hu⟩

end System

end Transition
