import Mathlib.Order.Defs.PartialOrder
import Mathlib.Logic.Basic

/-!
# Guarded runs of a partial step function

A `System` is a state machine whose step is a partial *function* of a label:
every choice the environment makes (which thread moves, what the kernel
answers) is part of the label, so a run is a list of labels and can be
replayed. A *guard* is a condition on the state before a step and the label;
`Run guard` are the runs all of whose steps meet it, and `Run fun _ _ => True`
are all runs.

The rules every safety proof uses are `Reaches.invariant` (an invariant of every
guarded step is an invariant of every state that guarded runs reach) and
`Reaches.invariant_of` (the same, when the step lemma needs what is already known
of these states). `trail` is what is noted along a run, step by step, and
`Run.preserves_trail` the rule for invariants that depend on it. `replay` is the
executable form, so that a concrete run is checked by evaluation.
-/

namespace Transition

universe u v v'

/-- A state machine: where it starts, and what each label does. -/
structure System (σ : Type u) (α : Type v) where
  /-- the state before the first step -/
  init : σ
  /-- the step a label stands for; `none` where it cannot be taken -/
  step : σ → α → Option σ

namespace System

variable {σ : Type u} {α : Type v} (M : System σ α)

/-- The runs of `M` whose every step meets `guard`. -/
inductive Run (guard : σ → α → Prop) : σ → List α → σ → Prop where
  /-- the empty run -/
  | nil (s : σ) : Run guard s [] s
  /-- one step that meets the guard, then a run -/
  | cons {s t u : σ} {a : α} {as : List α} :
      guard s a → M.step s a = some t → Run guard t as u → Run guard s (a :: as) u

/-- The states that runs meeting `guard` reach from the start. -/
def Reaches (guard : σ → α → Prop) (s : σ) : Prop := ∃ as, M.Run guard M.init as s

/-- The states of all runs. -/
abbrev Reachable (s : σ) : Prop := M.Reaches (fun _ _ => True) s

variable {M} {guard guard' : σ → α → Prop}

/-- A weaker guard admits every run. -/
theorem Run.mono (hg : ∀ s a, guard s a → guard' s a) {s t : σ} {as : List α}
    (h : M.Run guard s as t) : M.Run guard' s as t := by
  induction h with
  | nil s => exact Run.nil s
  | cons ha hs _ ih => exact Run.cons (hg _ _ ha) hs ih

/-- **The invariant rule**: what every guarded step preserves, every guarded
run preserves. -/
theorem Run.preserves {I : σ → Prop}
    (hstep : ∀ s a t, guard s a → M.step s a = some t → I s → I t)
    {s t : σ} {as : List α} (h : M.Run guard s as t) (hs : I s) : I t := by
  induction h with
  | nil s => exact hs
  | cons ha hst _ ih => exact ih (hstep _ _ _ ha hst hs)

/-- One step more. -/
theorem Run.snoc {s t u : σ} {a : α} {as : List α} (h : M.Run guard s as t) (hg : guard t a)
    (hs : M.step t a = some u) : M.Run guard s (as ++ [a]) u := by
  induction h with
  | nil s => exact Run.cons hg hs (Run.nil u)
  | cons ha hst _ ih => exact Run.cons ha hst (ih hg hs)

/-- One step. -/
theorem Run.single {s t : σ} {a : α} (hg : guard s a) (hs : M.step s a = some t) :
    M.Run guard s [a] t :=
  Run.cons hg hs (Run.nil t)

/-- One run after the other. -/
theorem Run.append {s t u : σ} {as bs : List α} (h : M.Run guard s as t)
    (h' : M.Run guard t bs u) : M.Run guard s (as ++ bs) u := by
  induction h with
  | nil s => exact h'
  | cons ha hst _ ih => exact Run.cons ha hst (ih h')

/-- A run in the middle of which `a` is taken. -/
theorem Run.split {s t : σ} {a : α} {as bs : List α} (h : M.Run guard s (as ++ a :: bs) t) :
    ∃ u v, M.Run guard s as u ∧ guard u a ∧ M.step u a = some v ∧ M.Run guard v bs t := by
  induction as generalizing s with
  | nil =>
    cases h with
    | cons ha hs hrest => exact ⟨s, _, Run.nil s, ha, hs, hrest⟩
  | cons b as ih =>
    cases h with
    | cons hb hs hrest =>
      obtain ⟨u, v, hrun, hu, hv, hrest⟩ := ih hrest
      exact ⟨u, v, Run.cons hb hs hrun, hu, hv, hrest⟩

/-- **The invariant rule with labels**: an invariant may depend on the labels so far. -/
theorem Run.preserves_labels {I : List α → σ → Prop}
    (hstep : ∀ bs s a t, guard s a → M.step s a = some t → I bs s → I (bs ++ [a]) t)
    {s t : σ} {as bs : List α} (h : M.Run guard s as t) (hs : I bs s) : I (bs ++ as) t := by
  induction h generalizing bs with
  | nil s =>
    rw [List.append_nil]
    exact hs
  | cons ha hst _ ih =>
    have hrest := ih (hstep _ _ _ _ ha hst hs)
    rwa [List.append_assoc] at hrest

/-- **The simulation rule**: a relation that every guarded step keeps, the other machine
taking the same label, is kept by every guarded run. -/
theorem Run.simulate {τ : Type v'} {N : System τ α} {other : τ → α → Prop} {R : σ → τ → Prop}
    (hstep : ∀ s a t s', guard s a → M.step s a = some t → R s s' →
      other s' a ∧ ∃ t', N.step s' a = some t' ∧ R t t')
    {s t : σ} {as : List α} (h : M.Run guard s as t) {s' : τ} (hs : R s s') :
    ∃ t', N.Run other s' as t' ∧ R t t' := by
  induction h generalizing s' with
  | nil s => exact ⟨s', Run.nil s', hs⟩
  | cons ha hst _ ih =>
    obtain ⟨hother, u', hu', hR⟩ := hstep _ _ _ _ ha hst hs
    obtain ⟨t', hrun, ht⟩ := ih hR
    exact ⟨t', Run.cons hother hu' hrun, ht⟩

/-- A weaker guard reaches every state. -/
theorem Reaches.mono (hg : ∀ s a, guard s a → guard' s a) {s : σ}
    (h : M.Reaches guard s) : M.Reaches guard' s := by
  obtain ⟨as, has⟩ := h
  exact ⟨as, has.mono hg⟩

/-- The invariant rule for the states reached from the start. -/
theorem Reaches.invariant {I : σ → Prop} (h0 : I M.init)
    (hstep : ∀ s a t, guard s a → M.step s a = some t → I s → I t)
    {s : σ} (h : M.Reaches guard s) : I s := by
  obtain ⟨as, has⟩ := h
  exact has.preserves hstep h0

theorem Reaches.init : M.Reaches guard M.init := ⟨[], Run.nil M.init⟩

theorem Reaches.step {s t : σ} {a : α} (h : M.Reaches guard s) (hg : guard s a)
    (hs : M.step s a = some t) : M.Reaches guard t := by
  obtain ⟨as, has⟩ := h
  exact ⟨as ++ [a], has.snoc hg hs⟩

theorem Reaches.append {s t : σ} {as : List α} (h : M.Reaches guard s)
    (hrun : M.Run guard s as t) : M.Reaches guard t := by
  obtain ⟨bs, hbs⟩ := h
  exact ⟨bs ++ as, hbs.append hrun⟩

/-- The invariant rule on top of what is known of all states that are reached. -/
theorem Reaches.invariant_of {I J : σ → Prop} (hJ : ∀ s, M.Reaches guard s → J s)
    (h0 : I M.init)
    (hstep : ∀ s a t, guard s a → M.step s a = some t → J s → I s → I t)
    {s : σ} (h : M.Reaches guard s) : I s := by
  have hboth : M.Reaches guard s ∧ I s :=
    h.invariant (I := fun s => M.Reaches guard s ∧ I s) ⟨Reaches.init, h0⟩
      fun s a t hg hst hI => ⟨hI.1.step hg hst, hstep s a t hg hst (hJ s hI.1) hI.2⟩
  exact hboth.2

/-! ## What is noted along a run -/

variable {γ : Type v'}

variable (M) in
/-- What `f` says of every step that the labels name, in order. -/
def trail (f : σ → α → γ) : σ → List α → List γ
  | _, [] => []
  | s, a :: as => f s a :: (M.step s a).elim [] fun t => trail f t as

/-- **The invariant rule with notes**: an invariant may depend on what was noted so far. -/
theorem Run.preserves_trail {f : σ → α → γ} {I : List γ → σ → Prop}
    (hstep : ∀ gs s a t, guard s a → M.step s a = some t → I gs s → I (gs ++ [f s a]) t)
    {s t : σ} {as : List α} (h : M.Run guard s as t) {gs : List γ} (hs : I gs s) :
    I (gs ++ M.trail f s as) t := by
  induction h generalizing gs with
  | nil s =>
    rw [trail, List.append_nil]
    exact hs
  | @cons s t u a as ha hst _ ih =>
    have hrest := ih (hstep _ _ _ _ ha hst hs)
    rw [trail, hst]
    rwa [List.append_assoc] at hrest

/-- Notes on notes. -/
theorem trail_map {δ : Type v'} (f : σ → α → γ) (g : γ → δ) (as : List α) (s : σ) :
    (M.trail f s as).map g = M.trail (fun s a => g (f s a)) s as := by
  induction as generalizing s with
  | nil => rfl
  | cons a as ih =>
    rw [trail, trail, List.map_cons]
    cases M.step s a with
    | none => rfl
    | some t => exact congrArg _ (ih t)

/-! ## Replaying a run -/

variable (M) in
/-- Take the steps the labels name, checking the guard before each. -/
def replay (guard : σ → α → Prop) [∀ s a, Decidable (guard s a)] : σ → List α → Option σ
  | s, [] => some s
  | s, a :: as =>
    if guard s a then
      match M.step s a with
      | none => none
      | some t => replay guard t as
    else none

/-- A replay that succeeds is a guarded run. -/
theorem Run.of_replay [∀ s a, Decidable (guard s a)] {as : List α} :
    ∀ {s t : σ}, M.replay guard s as = some t → M.Run guard s as t := by
  induction as with
  | nil =>
    intro s t h
    obtain rfl := Option.some.inj h
    exact Run.nil s
  | cons a as ih =>
    intro s t h
    rw [replay] at h
    split at h
    · rename_i hg
      split at h
      · cases h
      · rename_i u hu
        exact Run.cons hg hu (ih h)
    · cases h

variable (M) in
/-- The state a replay from the start ends in (the start itself, where the
labels cannot be replayed). -/
def final (guard : σ → α → Prop) [∀ s a, Decidable (guard s a)] (as : List α) : σ :=
  (M.replay guard M.init as).getD M.init

/-- The run that a replay takes. -/
theorem Run.of_replay_getD [∀ s a, Decidable (guard s a)] {s : σ} {as : List α}
    (h : (M.replay guard s as).isSome = true) :
    M.Run guard s as ((M.replay guard s as).getD s) := by
  obtain ⟨t, ht⟩ := Option.isSome_iff_exists.mp h
  refine Run.of_replay ?_
  rw [ht]
  rfl

variable (M) in
/-- A successful replay from the start reaches its final state. -/
theorem reaches_final (guard : σ → α → Prop) [∀ s a, Decidable (guard s a)] (as : List α)
    (h : (M.replay guard M.init as).isSome = true) : M.Reaches guard (M.final guard as) :=
  ⟨as, Run.of_replay_getD h⟩

end System

end Transition
