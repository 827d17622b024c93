import Mathlib.Data.List.Perm.Basic
import Woeful.Lib.Threads

/-!
# Writers that share a buffer

A buffer has room for so many bytes, and nobody drains it. Each of its writers writes once:
the kernel takes as much as there is room for, and refuses where there is none, unless there
is nothing to write. In which order they write is open. They can all get through if and only
if they need no room, or one of them can be the last: the others leave room for it, be it for a
part of what it has (`Writer.Fits`). A writer that can write without harm to the others is
always among them (`Fits.exists_write`), and where they can not all get through, nothing that
any of them does changes that (`not_fits_replace`, `not_fits_cons`, `not_fits_write`).
-/

namespace Buffer

open Threads

universe u

/-- What is to be known of a writer. -/
structure Writer (α : Type u) where
  /-- how much it has to write -/
  size : α → Nat
  /-- it needs no room: it has nothing to write, and does not ask for room before it does -/
  idle : α → Prop
  /-- a writer that needs no room writes nothing -/
  size_of_idle : ∀ a, idle a → size a = 0

namespace Writer

variable {α : Type u} {W : Writer α} {room n : Nat} {as as' : List α} {a b : α}

/-- What the writers have to write. -/
def load (W : Writer α) (as : List α) : Nat := total W.size as

@[simp] theorem load_nil : W.load [] = 0 := rfl

@[simp] theorem load_cons : W.load (a :: as) = W.size a + W.load as := rfl

theorem load_perm (h : as.Perm as') : W.load as = W.load as' := total_perm W.size h

theorem size_le_load (h : a ∈ as) : W.size a ≤ W.load as := by
  induction as with
  | nil => cases h
  | cons b as ih =>
    rw [load_cons]
    rcases List.mem_cons.mp h with rfl | h
    · exact Nat.le_add_right ..
    · exact Nat.le_trans (ih h) (Nat.le_add_left ..)

theorem load_of_idle (h : ∀ a ∈ as, W.idle a) : W.load as = 0 := by
  induction as with
  | nil => rfl
  | cons a as ih =>
    rw [load_cons, W.size_of_idle a (h a (List.mem_cons_self ..)),
      ih fun b hb => h b (List.mem_cons_of_mem _ hb)]

/-- Where there is something to write, somebody needs room. -/
theorem exists_of_load_pos (h : 0 < W.load as) : ∃ a ∈ as, ¬ W.idle a := by
  by_contra hidle
  push Not at hidle
  rw [load_of_idle hidle] at h
  exact Nat.lt_irrefl 0 h

/-- **The writers fit**: none of them needs room, or all but one leave some. -/
def Fits (W : Writer α) (room : Nat) (as : List α) : Prop :=
  (∀ a ∈ as, W.idle a) ∨ ∃ a ∈ as, W.load as < room + W.size a

theorem fits_nil : W.Fits room [] := Or.inl nofun

theorem fits_perm (h : as.Perm as') : W.Fits room as ↔ W.Fits room as' := by
  simp only [Fits, load_perm h, h.mem_iff]

theorem not_fits_iff : ¬ W.Fits room as ↔
    (∃ a ∈ as, ¬ W.idle a) ∧ ∀ a ∈ as, room + W.size a ≤ W.load as := by
  simp [Fits]

/-! ## Writers that fit -/

/-- **One of them can write**, and the others still fit. -/
theorem Fits.exists_write (h : W.Fits room as) (hne : as ≠ []) :
    ∃ a as', as.Perm (a :: as') ∧ (W.idle a ∨ 0 < room) ∧ W.Fits (room - W.size a) as' := by
  rcases h with hall | ⟨a, ha, hlt⟩
  · obtain ⟨a, as, rfl⟩ := List.exists_cons_of_ne_nil hne
    exact ⟨a, as, .refl _, Or.inl (hall a (List.mem_cons_self ..)),
      Or.inl fun b hb => hall b (List.mem_cons_of_mem _ hb)⟩
  · obtain ⟨pre, post, rfl⟩ := List.append_of_mem ha
    have hperm : (pre ++ a :: post).Perm (a :: (pre ++ post)) := List.perm_middle
    rw [load_perm hperm, load_cons] at hlt
    cases hrest : pre ++ post with
    | nil =>
      rw [hrest] at hlt hperm
      exact ⟨a, [], hperm, Or.inr (by rw [load_nil] at hlt; omega), fits_nil⟩
    | cons b as =>
      -- `a` stays for the last
      rw [hrest] at hlt hperm
      rw [load_cons] at hlt
      refine ⟨b, a :: as, hperm.trans (.swap b a as), Or.inr (by omega), Or.inr ⟨a, ?_, ?_⟩⟩
      · exact List.mem_cons_self ..
      · rw [load_cons]
        omega

/-! ## Writers that do not -/

/-- A writer is told that there is room, or told that there is none and asks again. -/
theorem not_fits_replace (h : ¬ W.Fits room (a :: as)) (hb : W.idle b → 0 < room)
    (hsize : W.size b = W.size a) : ¬ W.Fits room (b :: as) := by
  obtain ⟨-, hle⟩ := not_fits_iff.mp h
  have hload : W.load (b :: as) = W.load (a :: as) := by
    rw [load_cons, load_cons, hsize]
  have ha := hle a (List.mem_cons_self ..)
  refine not_fits_iff.mpr ⟨?_, fun c hc => ?_⟩
  · by_cases hidle : W.idle b
    · exact exists_of_load_pos (by have := hb hidle; omega)
    · exact ⟨b, List.mem_cons_self .., hidle⟩
  · rw [hload]
    rcases List.mem_cons.mp hc with rfl | hc
    · rw [hsize]
      exact ha
    · exact hle c (List.mem_cons_of_mem _ hc)

/-- One more comes. -/
theorem not_fits_cons (h : ¬ W.Fits room as) : ¬ W.Fits room (a :: as) := by
  obtain ⟨⟨b, hb, hidle⟩, hle⟩ := not_fits_iff.mp h
  have hload := hle b hb
  refine not_fits_iff.mpr ⟨⟨b, List.mem_cons_of_mem _ hb, hidle⟩, fun c hc => ?_⟩
  rw [load_cons]
  rcases List.mem_cons.mp hc with rfl | hc
  · omega
  · have := hle c hc
    omega

/-- Somebody else takes room. -/
theorem not_fits_shrink (h : ¬ W.Fits room as) : ¬ W.Fits (room - n) as := by
  obtain ⟨hidle, hle⟩ := not_fits_iff.mp h
  refine not_fits_iff.mpr ⟨hidle, fun a ha => ?_⟩
  have := hle a ha
  omega

/-- One of them writes as much as it can. -/
theorem not_fits_write (h : ¬ W.Fits room (a :: as)) (ha : W.idle a ∨ 0 < room) :
    ¬ W.Fits (room - W.size a) as := by
  obtain ⟨⟨b, hb, hidle⟩, hle⟩ := not_fits_iff.mp h
  have hload := hle a (List.mem_cons_self ..)
  rw [load_cons] at hload
  refine not_fits_iff.mpr ⟨?_, fun c hc => ?_⟩
  · rcases ha with ha | hpos
    · refine ⟨b, (List.mem_cons.mp hb).resolve_left ?_, hidle⟩
      rintro rfl
      exact hidle ha
    · exact exists_of_load_pos (by omega)
  · have hc' := hle c (List.mem_cons_of_mem _ hc)
    have := W.size_le_load hc
    rw [load_cons] at hc'
    omega

end Writer

end Buffer
