import Mathlib.Data.List.AList

/-!
# Finite maps with values updated in place

Mathlib's `AList` is a finite map with an iteration order. What it lacks is an
update that keeps the order: `mapWithKey` rewrites every value under its key,
`modify` one of them.
-/

namespace AList

universe u v

variable {κ : Type u} {β : Type v}

/-- Rewrite every value, in place. -/
def mapWithKey (f : κ → β → β) (s : AList fun _ : κ => β) : AList fun _ : κ => β :=
  ⟨s.entries.map fun e => ⟨e.1, f e.1 e.2⟩, by
    have hkeys : (s.entries.map fun e => (⟨e.1, f e.1 e.2⟩ : (_ : κ) × β)).keys =
        s.entries.keys := by
      simp [List.keys, Function.comp_def]
    rw [List.NodupKeys, hkeys]
    exact s.nodupKeys⟩

@[simp] theorem keys_mapWithKey (f : κ → β → β) (s : AList fun _ : κ => β) :
    (s.mapWithKey f).keys = s.keys := by
  simp [keys, mapWithKey, List.keys, Function.comp_def]

@[simp] theorem mem_mapWithKey {f : κ → β → β} {s : AList fun _ : κ => β} {k : κ} :
    k ∈ s.mapWithKey f ↔ k ∈ s := by
  rw [mem_keys, mem_keys, keys_mapWithKey]

variable [DecidableEq κ]

@[simp] theorem lookup_mapWithKey (f : κ → β → β) (s : AList fun _ : κ => β) (k : κ) :
    (s.mapWithKey f).lookup k = (s.lookup k).map (f k) := by
  change (s.entries.map fun e => (⟨e.1, f e.1 e.2⟩ : (_ : κ) × β)).dlookup k =
    (s.entries.dlookup k).map (f k)
  induction s.entries with
  | nil => rfl
  | cons e l ih =>
    obtain ⟨k', b⟩ := e
    by_cases hk : k = k'
    · subst hk
      simp [List.dlookup_cons_eq]
    · rw [List.map_cons, List.dlookup_cons_ne _ _ hk, List.dlookup_cons_ne _ _ hk]
      exact ih

/-- Rewrite the value under `k`, in place; nothing happens where there is none. -/
def modify (k : κ) (f : β → β) (s : AList fun _ : κ => β) : AList fun _ : κ => β :=
  s.mapWithKey fun k' b => if k' = k then f b else b

@[simp] theorem lookup_modify_self (k : κ) (f : β → β) (s : AList fun _ : κ => β) :
    (s.modify k f).lookup k = (s.lookup k).map f := by
  simp [modify]

theorem lookup_modify_ne {k k' : κ} (h : k' ≠ k) (f : β → β) (s : AList fun _ : κ => β) :
    (s.modify k f).lookup k' = s.lookup k' := by
  simp [modify, h]

@[simp] theorem mem_modify {k k' : κ} {f : β → β} {s : AList fun _ : κ => β} :
    k' ∈ s.modify k f ↔ k' ∈ s := by
  rw [modify, mem_mapWithKey]

theorem mem_iff_lookup {s : AList fun _ : κ => β} {k : κ} :
    k ∈ s ↔ ∃ b, s.lookup k = some b := by
  rw [← lookup_isSome, Option.isSome_iff_exists]

/-- Reading one key of a map whose order was changed. -/
theorem lookup_of_perm {s t : AList fun _ : κ => β} (h : s.entries.Perm t.entries) (k : κ) :
    s.lookup k = t.lookup k :=
  perm_lookup h

end AList
