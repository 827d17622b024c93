import Mathlib.Data.List.Basic

/-!
# Families of threads

The threads of a program as a list of what each of them is doing; thread `i` moves by
`List.set`. What the threads come to together is a `total`: of weights, or, with weights 0
and 1, of those that are doing something. A move changes a total by what the thread that
moves contributes (`total_set`), and the list of what some of the threads are working on by
what it is working on (`filterMap_set`).
-/

namespace Threads

universe u v

variable {α : Type u} {β : Type v} {l : List α} {i : Nat} {a b : α}

/-- A thread among the others. -/
theorem split (h : l[i]? = some a) :
    ∃ pre post, l = pre ++ a :: post ∧ pre.length = i ∧ ∀ b, l.set i b = pre ++ b :: post := by
  obtain ⟨hlt, hget⟩ := List.getElem?_eq_some_iff.mp h
  have hl : l = l.take i ++ a :: l.drop (i + 1) := by
    rw [← hget, List.getElem_cons_drop, List.take_append_drop]
  have hlen : (l.take i).length = i := List.length_take_of_le (Nat.le_of_lt hlt)
  exact ⟨_, _, hl, hlen, fun b => List.set_eq_take_cons_drop b hlt⟩

/-- The threads that do not move. -/
theorem getElem?_set_of_ne {j : Nat} (h : j ≠ i) : (l.set i b)[j]? = l[j]? :=
  List.getElem?_set_ne (Ne.symm h)

/-- The thread that moves. -/
theorem getElem?_set_of_some (h : l[i]? = some a) : (l.set i b)[i]? = some b :=
  List.getElem?_set_self (List.getElem?_eq_some_iff.mp h).1

/-- Where a thread is after a move: it has moved, or is where it was. -/
theorem getElem?_set_cases {j : Nat} {c : α} (h : (l.set i b)[j]? = some c) :
    j = i ∧ c = b ∨ j ≠ i ∧ l[j]? = some c := by
  by_cases hj : j = i
  · subst hj
    refine Or.inl ⟨rfl, ?_⟩
    rw [List.getElem?_set] at h
    simp only [↓reduceIte] at h
    split at h
    · exact (Option.some.inj h).symm
    · cases h
  · exact Or.inr ⟨hj, (getElem?_set_of_ne hj) ▸ h⟩

/-- What the threads come to. -/
def total (w : α → Nat) (l : List α) : Nat := l.foldr (fun a n => w a + n) 0

@[simp] theorem total_nil (w : α → Nat) : total w [] = 0 := rfl

@[simp] theorem total_cons (w : α → Nat) : total w (a :: l) = w a + total w l := rfl

@[simp] theorem total_append (w : α → Nat) {l' : List α} :
    total w (l ++ l') = total w l + total w l' := by
  induction l with
  | nil => exact (Nat.zero_add _).symm
  | cons a l ih => rw [List.cons_append, total_cons, total_cons, ih, Nat.add_assoc]

/-- In which order they stand does not matter. -/
theorem total_perm (w : α → Nat) {l' : List α} (h : l.Perm l') : total w l = total w l' := by
  induction h with
  | nil => rfl
  | cons a _ ih => rw [total_cons, total_cons, ih]
  | swap a b l =>
    simp only [total_cons]
    omega
  | trans _ _ ih ih' => exact ih.trans ih'

/-- Threads that all do the same. -/
@[simp] theorem total_replicate (w : α → Nat) (n : Nat) :
    total w (List.replicate n a) = n * w a := by
  induction n with
  | zero => exact (Nat.zero_mul _).symm
  | succ n ih => rw [List.replicate_succ, total_cons, ih, Nat.succ_mul, Nat.add_comm]

/-- **A move changes a total** by what the thread contributes. -/
theorem total_set (w : α → Nat) (h : l[i]? = some a) :
    total w (l.set i b) + w a = total w l + w b := by
  obtain ⟨pre, post, hl, -, hset⟩ := split h
  rw [hset, hl]
  simp only [total_append, total_cons]
  omega

/-- Moves that contribute nothing. -/
theorem total_map_of_eq {w : α → Nat} {f : α → α} (h : ∀ a, w (f a) = w a) :
    total w (l.map f) = total w l := by
  induction l with
  | nil => rfl
  | cons a l ih => rw [List.map_cons, total_cons, total_cons, h, ih]

/-- Moves that contribute at most `c` each. -/
theorem total_map_le {w : α → Nat} {f : α → α} {c : Nat} (h : ∀ a, w (f a) ≤ w a + c) :
    total w (l.map f) ≤ total w l + c * l.length := by
  induction l with
  | nil => exact Nat.le_refl _
  | cons a l ih =>
    have ha := h a
    rw [List.map_cons, total_cons, total_cons, List.length_cons, Nat.mul_succ]
    omega

/-- A thread is gone. -/
theorem total_eraseIdx (w : α → Nat) (h : l[i]? = some a) :
    total w (l.eraseIdx i) + w a = total w l := by
  obtain ⟨pre, post, hl, hlen, -⟩ := split h
  subst hlen
  rw [hl, List.eraseIdx_append_of_length_le (Nat.le_refl _), Nat.sub_self, List.eraseIdx_cons_zero]
  simp only [total_append, total_cons]
  omega

/-- A thread contributes to the total. -/
theorem le_total (w : α → Nat) (h : l[i]? = some a) : w a ≤ total w l := by
  have hset := total_eraseIdx w h
  omega

/-- Threads that come to something are some. -/
theorem exists_of_total_ne_zero {w : α → Nat} (h : total w l ≠ 0) :
    ∃ (i : Nat) (a : α), l[i]? = some a ∧ w a ≠ 0 := by
  induction l with
  | nil => exact absurd rfl h
  | cons a l ih =>
    by_cases ha : w a = 0
    · rw [total_cons, ha, Nat.zero_add] at h
      obtain ⟨i, b, hi, hb⟩ := ih h
      exact ⟨i + 1, b, hi, hb⟩
    · exact ⟨0, a, rfl, ha⟩

/-- Where no thread contributes more than one, they come to no more than they are. -/
theorem total_le_length {w : α → Nat} (h : ∀ a, w a ≤ 1) : total w l ≤ l.length := by
  induction l with
  | nil => exact Nat.le_refl _
  | cons a l ih =>
    rw [total_cons, List.length_cons]
    have ha := h a
    omega

/-- And where one of them contributes nothing, to less. -/
theorem total_lt_length {w : α → Nat} (h : ∀ a, w a ≤ 1) (hi : l[i]? = some a) (ha : w a = 0) :
    total w l < l.length := by
  have herase := total_eraseIdx w hi
  have hle := total_le_length (l := l.eraseIdx i) h
  have hlt := (List.getElem?_eq_some_iff.mp hi).1
  rw [List.length_eraseIdx_of_lt hlt] at hle
  omega

/-- Threads that come to less than they are, one of them contributes nothing. -/
theorem exists_of_total_lt_length {w : α → Nat} (h : total w l < l.length) :
    ∃ (i : Nat) (a : α), l[i]? = some a ∧ w a = 0 := by
  induction l with
  | nil => cases h
  | cons a l ih =>
    by_cases ha : w a = 0
    · exact ⟨0, a, rfl, ha⟩
    · rw [total_cons, List.length_cons] at h
      obtain ⟨i, b, hi, hb⟩ := ih (by omega)
      exact ⟨i + 1, b, hi, hb⟩

/-- **What the threads are working on**, after a move. -/
theorem filterMap_set (f : α → Option β) (h : l[i]? = some a) :
    ((l.set i b).filterMap f ++ (f a).toList).Perm (l.filterMap f ++ (f b).toList) := by
  obtain ⟨pre, post, hl, -, hset⟩ := split h
  rw [hset, hl]
  simp only [List.filterMap_append, List.filterMap_cons]
  cases f a with
  | none =>
    cases f b with
    | none => exact List.Perm.refl _
    | some y =>
      simp only [Option.toList_none, Option.toList_some, List.append_nil, List.append_assoc]
      exact List.Perm.append_left _ (List.perm_append_singleton y _).symm
  | some x =>
    cases f b with
    | none =>
      simp only [Option.toList_none, Option.toList_some, List.append_nil, List.append_assoc]
      exact List.Perm.append_left _ (List.perm_append_singleton x _)
    | some y =>
      simp only [Option.toList_some, List.append_assoc]
      refine List.Perm.append_left _ ((List.perm_append_singleton x _).trans ?_)
      exact (List.Perm.swap y x _).trans (List.perm_append_singleton y _).symm

end Threads
