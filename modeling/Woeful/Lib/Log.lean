import Mathlib.Data.List.Basic

/-!
# Append-only logs

A log is a list of events to which a system only ever appends. `Extends P l l'` says
that `l'` is `l` with further events appended, all of which satisfy `P`; it composes
along the steps of a function, so that what a long function logs is found from what
its parts log. `split_of_snoc` is for what is to hold at every position of a log: with
one event more it is asked for at the new position only. `Throughout` is such a condition.
-/

namespace Log

universe u v

variable {ε : Type u} {A : Type v} {P Q : ε → Prop} {l l' l'' : List ε} {e : ε}

/-- `l'` is `l` with events appended that satisfy `P`. -/
def Extends (P : ε → Prop) (l l' : List ε) : Prop := ∃ es, l' = l ++ es ∧ ∀ e ∈ es, P e

namespace Extends

theorem refl (P : ε → Prop) (l : List ε) : Extends P l l :=
  ⟨[], (List.append_nil l).symm, fun _ h => nomatch h⟩

theorem of_eq (h : l' = l) : Extends P l l' := h ▸ refl P l

theorem append {es : List ε} (h : ∀ e ∈ es, P e) : Extends P l (l ++ es) := ⟨es, rfl, h⟩

theorem mono (h : Extends P l l') (hPQ : ∀ e, P e → Q e) : Extends Q l l' := by
  obtain ⟨es, rfl, hes⟩ := h
  exact append fun e he => hPQ e (hes e he)

theorem snoc (he : P e) : Extends P l (l ++ [e]) :=
  append fun _ h => List.mem_singleton.mp h ▸ he

theorem trans (h : Extends P l l') (h' : Extends P l' l'') : Extends P l l'' := by
  obtain ⟨es, rfl, hes⟩ := h
  obtain ⟨es', rfl, hes'⟩ := h'
  rw [List.append_assoc]
  refine append fun e he => ?_
  rcases List.mem_append.mp he with he | he
  · exact hes e he
  · exact hes' e he

/-- A loop extends a log if its body does. -/
theorem foldl {σ : Type v} {log : σ → List ε} {f : σ → A → σ} (as : List A)
    (hf : ∀ s, ∀ a ∈ as, Extends P (log s) (log (f s a))) :
    ∀ s, Extends P (log s) (log (as.foldl f s)) := by
  induction as with
  | nil => exact fun s => refl P (log s)
  | cons a as ih =>
    intro s
    apply (hf s a (List.mem_cons_self ..)).trans
    exact ih (fun s a ha => hf s a (List.mem_cons_of_mem _ ha)) (f s a)

/-- An event of the longer log is old, or satisfies `P`. -/
theorem mem (h : Extends P l l') (he : e ∈ l') : e ∈ l ∨ P e := by
  obtain ⟨es, rfl, hes⟩ := h
  rcases List.mem_append.mp he with he | he
  · exact Or.inl he
  · exact Or.inr (hes e he)

/-- Of two ways to name the events that were added. -/
theorem of_append {es : List ε} (h : Extends P l (l ++ es)) : ∀ e ∈ es, P e := by
  obtain ⟨es', he, hes⟩ := h
  rw [List.append_cancel_left he]
  exact hes

/-- Old events stay. -/
theorem subset (h : Extends P l l') (he : e ∈ l) : e ∈ l' := by
  obtain ⟨es, rfl, -⟩ := h
  exact List.mem_append_left es he

end Extends

/-! ## What has happened since -/

/-- A `P` has happened, and no `Q` since. -/
def Since (P Q : ε → Prop) (l : List ε) : Prop :=
  ∃ pre e post, l = pre ++ e :: post ∧ P e ∧ ∀ e' ∈ post, ¬ Q e'

theorem not_since_nil (P Q : ε → Prop) : ¬ Since P Q [] := by
  rintro ⟨pre, e, post, h, -, -⟩
  exact List.append_ne_nil_of_right_ne_nil pre (List.cons_ne_nil e post) h.symm

/-- With one event more: it is a `P`, or it is no `Q` and the `P` is an old one. -/
theorem since_snoc : Since P Q (l ++ [e]) ↔ P e ∨ Since P Q l ∧ ¬ Q e := by
  constructor
  · rintro ⟨pre, e', post, h, hP, hQ⟩
    rcases post.eq_nil_or_concat with rfl | ⟨rest, last, rfl⟩
    · obtain ⟨-, he⟩ := List.append_inj' h rfl
      exact Or.inl ((List.cons.inj he).1 ▸ hP)
    · rw [List.concat_eq_append] at h hQ
      have hassoc : l ++ [e] = (pre ++ e' :: rest) ++ [last] := by
        rw [h, List.append_assoc]
        rfl
      obtain ⟨rfl, he⟩ := List.append_inj' hassoc rfl
      obtain rfl := (List.cons.inj he).1
      refine Or.inr ⟨⟨pre, e', rest, rfl, hP, fun a ha => hQ a ?_⟩, hQ e ?_⟩
      · exact List.mem_append_left _ ha
      · exact List.mem_append_right _ (List.mem_singleton_self e)
  · rintro (hP | ⟨⟨pre, e', post, rfl, hP, hQ⟩, hne⟩)
    · exact ⟨l, e, [], rfl, hP, fun _ ha => absurd ha List.not_mem_nil⟩
    · refine ⟨pre, e', post ++ [e], by rw [List.append_assoc]; rfl, hP, fun a ha => ?_⟩
      rcases List.mem_append.mp ha with ha | ha
      · exact hQ a ha
      · exact List.mem_singleton.mp ha ▸ hne

/-- Where an event stands in a longer log: among the old ones, or it is one of those added. -/
theorem split_of_append {es pre post : List ε} (h : l ++ es = pre ++ e :: post) :
    (∃ rest, l = pre ++ e :: rest) ∨ e ∈ es := by
  rcases List.append_eq_append_iff.mp h with ⟨as, -, rfl⟩ | ⟨cs, rfl, hcs⟩
  · exact Or.inr (List.mem_append_right _ (List.mem_cons_self ..))
  · cases cs with
    | nil =>
      rw [List.nil_append] at hcs
      exact Or.inr (hcs ▸ List.mem_cons_self ..)
    | cons c cs =>
      obtain ⟨rfl, -⟩ := List.cons.inj hcs
      exact Or.inl ⟨cs, rfl⟩

/-- Where an event stands in a log with one event more: among the old ones, or it is
the new one. -/
theorem split_of_snoc {e' : ε} {pre post : List ε} (h : l ++ [e'] = pre ++ e :: post) :
    (∃ rest, l = pre ++ e :: rest) ∨ pre = l ∧ e = e' := by
  rcases post.eq_nil_or_concat with rfl | ⟨rest, last, rfl⟩
  · obtain ⟨rfl, he⟩ := List.append_inj' h rfl
    exact Or.inr ⟨rfl, (List.cons.inj he).1.symm⟩
  · have hassoc : l ++ [e'] = (pre ++ e :: rest) ++ [last] := by
      rw [h, List.concat_eq_append, List.append_assoc]
      rfl
    exact Or.inl ⟨rest, (List.append_inj' hassoc rfl).1⟩

/-! ## What holds all along -/

/-- `C pre e` holds of every event `e` and the log `pre` it was appended to. -/
def Throughout (C : List ε → ε → Prop) (l : List ε) : Prop :=
  ∀ pre e post, l = pre ++ e :: post → C pre e

variable {C : List ε → ε → Prop}

theorem throughout_nil : Throughout C [] := fun pre e post h =>
  absurd h.symm (List.append_ne_nil_of_right_ne_nil pre (List.cons_ne_nil e post))

theorem Throughout.snoc (h : Throughout C l) (he : C l e) : Throughout C (l ++ [e]) := by
  intro pre e' post hsplit
  rcases split_of_snoc hsplit with ⟨rest, hl⟩ | ⟨rfl, rfl⟩
  · exact h pre e' rest hl
  · exact he

theorem Throughout.init (h : Throughout C (l ++ [e])) : Throughout C l :=
  fun pre e' post hsplit => h pre e' (post ++ [e]) (by rw [hsplit, List.append_assoc]; rfl)

theorem Throughout.last (h : Throughout C (l ++ [e])) : C l e := h l e [] rfl

/-- Events that are all right anywhere. -/
theorem Throughout.append {es : List ε} (h : Throughout C l) (hes : ∀ e ∈ es, ∀ pre, C pre e) :
    Throughout C (l ++ es) := by
  intro pre e post hsplit
  rcases split_of_append hsplit with ⟨rest, hl⟩ | he
  · exact h pre e rest hl
  · exact hes e he pre

end Log
