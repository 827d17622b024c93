import Mathlib.Logic.Function.Basic

/-!
# References through names that may be bound again

A *table* binds names to objects. A *reference* is a name that somebody holds on
to, with the objects it saw behind the name so far. Names are taken back and
given to other objects, so a reference may come to mean something it never saw.

It is `Current` when whatever the name is bound to now is all it ever saw. A
table change `Keeps` a name when it does not bind it to a new object (taking it
back is fine), and that is what keeps a reference current (`Current.keep`). The
rule for a step of a program that holds many references is `AllCurrent.step`.
-/

namespace Names

universe u v

variable {ν : Type u} {ω : Type v}

/-- A name and the objects seen behind it; `none` where it was not bound. -/
structure Ref (ν : Type u) (ω : Type v) where
  /-- the name -/
  name : ν
  /-- what was behind it, each time it was looked up -/
  seen : List (Option ω)

/-- `name` is not bound to anything in `t` that it was not bound to in `s`. -/
def Keeps (s t : ν → Option ω) (name : ν) : Prop := ∀ o, t name = some o → s name = some o

/-- Whatever the name is bound to is all that was seen. -/
def Current (s : ν → Option ω) (r : Ref ν ω) : Prop :=
  ∀ o, s r.name = some o → ∀ k ∈ r.seen, k = some o

/-- All references are current. -/
def AllCurrent (s : ν → Option ω) (rs : List (Ref ν ω)) : Prop := ∀ r ∈ rs, Current s r

variable {s t : ν → Option ω} {r : Ref ν ω}

theorem Keeps.of_eq {name : ν} (h : t name = s name) : Keeps s t name :=
  fun _ ho => h ▸ ho

/-- A name whose binding is taken back is kept, and so is every other. -/
theorem Keeps.of_unbind [DecidableEq ν] {name : ν} (x : ν)
    (h : t = Function.update s x none) : Keeps s t name := by
  intro o ho
  rw [h, Function.update_apply] at ho
  split at ho
  · cases ho
  · exact ho

/-- Binding a name keeps every other. -/
theorem Keeps.of_bind [DecidableEq ν] {name x : ν} {b : Option ω} (hne : name ≠ x)
    (h : t = Function.update s x b) : Keeps s t name :=
  Keeps.of_eq (by rw [h, Function.update_of_ne hne])

/-- A reference that has seen nothing is current. -/
theorem Current.of_seen_nil (h : r.seen = []) : Current s r := by
  intro o _ k hk
  rw [h] at hk
  cases hk

theorem Current.keep (h : Current s r) (hk : Keeps s t r.name) : Current t r :=
  fun o ho => h o (hk o ho)

/-- Looking the name up once more. -/
theorem Current.look (h : Current s r) : Current s ⟨r.name, r.seen ++ [s r.name]⟩ := by
  intro o ho k hk
  rcases List.mem_append.mp hk with hk | hk
  · exact h o ho k hk
  · obtain rfl := List.mem_singleton.mp hk
    exact ho

/-- **A step keeps all references current** when every reference it leaves was
there before or is current, and no name that has been looked up is bound anew. -/
theorem AllCurrent.step {rs rs' : List (Ref ν ω)} (h : AllCurrent s rs)
    (hrs : ∀ r ∈ rs', r ∈ rs ∨ Current t r)
    (hkeep : ∀ r ∈ rs, r.seen ≠ [] → Keeps s t r.name) : AllCurrent t rs' := by
  intro r hr
  rcases hrs r hr with hold | hnew
  · by_cases hseen : r.seen = []
    · exact .of_seen_nil hseen
    · exact (h r hold).keep (hkeep r hold hseen)
  · exact hnew

end Names
