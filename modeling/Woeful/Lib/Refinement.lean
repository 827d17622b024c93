import Woeful.Lib.Run

/-!
# Refinement

A machine `M` that does what `N` does, with steps of its own in between: `abs` is what `M`'s
state stands for, and `visible` what its steps come to. If every step of `M` is a run of `N`
with the labels that are visible of it, then so is every run of `M` (`Run.refines`, and
`Run.refines_trail` where what is visible depends on the state). If every step of `N` can be
taken by some run of `M`, then every run of `N` is what is visible of a run of `M`
(`Run.realized`); `I` is what such runs of `M` leave behind for the next one.
-/

namespace Transition

namespace System

universe u u' v v'

variable {σ : Type u} {τ : Type u'} {α : Type v} {β : Type v'} {M : System σ α} {N : System τ β}
  {guard : σ → α → Prop} {guard' : τ → β → Prop} {abs : σ → τ} {visible : α → List β}
  {I : σ → Prop} {s t : σ} {as : List α} {u w : τ} {bs : List β}

/-- **Every run of `M` is one of `N`.** -/
theorem Run.refines (hkeep : ∀ s a t, guard s a → M.step s a = some t → I s → I t)
    (hstep : ∀ s a t, guard s a → M.step s a = some t → I s →
      N.Run guard' (abs s) (visible a) (abs t))
    (h : M.Run guard s as t) (hs : I s) : N.Run guard' (abs s) (as.flatMap visible) (abs t) := by
  induction h with
  | nil s => exact Run.nil _
  | cons ha hst _ ih =>
    rw [List.flatMap_cons]
    exact (hstep _ _ _ ha hst hs).append (ih (hkeep _ _ _ ha hst hs))

/-- **Every run of `M` is one of `N` to an observer** who sees `note` of each step of `M` and
`seen` of each label of `N`; how many steps of `N` it takes may depend on the state. -/
theorem Run.refines_trail {γ : Type v'} {note : σ → α → List γ} {seen : β → Option γ}
    (hkeep : ∀ s a t, guard s a → M.step s a = some t → I s → I t)
    (hstep : ∀ s a t, guard s a → M.step s a = some t → I s →
      ∃ bs, N.Run guard' (abs s) bs (abs t) ∧ bs.filterMap seen = note s a)
    (h : M.Run guard s as t) (hs : I s) :
    ∃ bs, N.Run guard' (abs s) bs (abs t) ∧
      bs.filterMap seen = (M.trail note s as).flatten := by
  induction h with
  | nil s => exact ⟨[], Run.nil _, rfl⟩
  | cons ha hst _ ih =>
    obtain ⟨bs, hrun, hseen⟩ := hstep _ _ _ ha hst hs
    obtain ⟨bs', hrun', hseen'⟩ := ih (hkeep _ _ _ ha hst hs)
    refine ⟨bs ++ bs', hrun.append hrun', ?_⟩
    rw [List.filterMap_append, hseen, hseen', trail, hst]
    rfl

/-- **Every run of `N` is one of `M`.** -/
theorem Run.realized
    (hstep : ∀ s b u, I s → guard' (abs s) b → N.step (abs s) b = some u →
      ∃ as t, M.Run guard s as t ∧ as.flatMap visible = [b] ∧ abs t = u ∧ I t)
    (h : N.Run guard' u bs w) (hu : abs s = u) (hs : I s) :
    ∃ as t, M.Run guard s as t ∧ as.flatMap visible = bs ∧ abs t = w ∧ I t := by
  induction h generalizing s with
  | nil u => exact ⟨[], s, Run.nil s, rfl, hu, hs⟩
  | @cons u u' w b bs hb hst _ ih =>
    subst hu
    obtain ⟨as, t, hrun, hvisible, ht, hI⟩ := hstep s b u' hs hb hst
    obtain ⟨as', t', hrun', hvisible', ht', hI'⟩ := ih ht hI
    refine ⟨as ++ as', t', hrun.append hrun', ?_, ht', hI'⟩
    rw [List.flatMap_append, hvisible, hvisible']
    rfl

end System

end Transition
