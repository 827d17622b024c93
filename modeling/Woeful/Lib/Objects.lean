/-!
# Objects with value semantics

An object is copied, assigned to and destroyed by code of its own. The code is sound on
objects in a proper state only, so an operation is a partial function: `none` stands for
undefined behaviour, and for losing something the object owned.

`Regular` says that the objects of a family behave as the values they stand for: copies are
equal, what is assigned to takes the value assigned, and nothing has undefined behaviour. A
vector copies, assigns and destroys element by element, in the storage it has or in a new one,
and it is regular when its elements are (`Regular.vector`, `Regular.pushBack`).
-/

namespace Objects

universe v

/-- The operations of a class of objects. -/
structure Lifecycle (O : Type) where
  /-- the copy constructor -/
  copy : O → Option O
  /-- `operator=` of two objects: what the first becomes -/
  assign : O → O → Option O
  /-- the destructor -/
  destroy : O → Option Unit

/-- The objects `rep v` are values. -/
structure Regular {O : Type} {V : Type v} (ops : Lifecycle O) (rep : V → O) : Prop where
  /-- a copy is equal -/
  copy : ∀ a, ops.copy (rep a) = some (rep a)
  /-- assignment replaces the value -/
  assign : ∀ a b, ops.assign (rep a) (rep b) = some (rep b)
  /-- an object can be destroyed -/
  destroy : ∀ a, ops.destroy (rep a) = some ()

/-! ## Vectors -/

namespace Lifecycle

variable {O : Type} (ops : Lifecycle O)

/-- Copy every element. -/
def copyAll : List O → Option (List O)
  | [] => some []
  | o :: os => do
    let o' ← ops.copy o
    let os' ← copyAll os
    return o' :: os'

/-- Destroy every element. -/
def destroyAll : List O → Option Unit
  | [] => some ()
  | o :: os => do
    ops.destroy o
    destroyAll os

/-- Assign into the storage there is: element by element as far as both go, and the rest is
copied or destroyed. -/
def assignInPlace : List O → List O → Option (List O)
  | os, [] => do
    ops.destroyAll os
    return []
  | [], q :: qs => ops.copyAll (q :: qs)
  | o :: os, q :: qs => do
    let o' ← ops.assign o q
    let os' ← assignInPlace os qs
    return o' :: os'

/-- A vector. Whether an assignment `reallocates` depends on the storage it has. -/
def vector (reallocates : Bool) : Lifecycle (List O) where
  copy := ops.copyAll
  assign os qs :=
    if reallocates then do
      let os' ← ops.copyAll qs
      ops.destroyAll os
      return os'
    else ops.assignInPlace os qs
  destroy := ops.destroyAll

/-- `push_back`: the new element is a copy, and so are the old ones if the storage is new. -/
def pushBack (reallocates : Bool) (os : List O) (o : O) : Option (List O) := do
  let o' ← ops.copy o
  if reallocates then
    let os' ← ops.copyAll os
    ops.destroyAll os
    return os' ++ [o']
  else return os ++ [o']

end Lifecycle

/-! ## Vectors of values are values -/

section Regular

variable {O : Type} {V : Type v} {ops : Lifecycle O} {rep : V → O}

theorem Regular.copyAll (h : Regular ops rep) (as : List V) :
    ops.copyAll (as.map rep) = some (as.map rep) := by
  induction as with
  | nil => rfl
  | cons a as ih => simp [Lifecycle.copyAll, h.copy, ih]

theorem Regular.destroyAll (h : Regular ops rep) (as : List V) :
    ops.destroyAll (as.map rep) = some () := by
  induction as with
  | nil => rfl
  | cons a as ih => simp [Lifecycle.destroyAll, h.destroy, ih]

theorem Regular.assignInPlace (h : Regular ops rep) (as bs : List V) :
    ops.assignInPlace (as.map rep) (bs.map rep) = some (bs.map rep) := by
  induction bs generalizing as with
  | nil => simp [Lifecycle.assignInPlace, h.destroyAll]
  | cons b bs ih =>
    cases as with
    | nil => exact h.copyAll (b :: bs)
    | cons a as => simp [Lifecycle.assignInPlace, h.assign, ih]

/-- Vectors of values are values, wherever their storage is. -/
theorem Regular.vector (h : Regular ops rep) (reallocates : Bool) :
    Regular (ops.vector reallocates) (List.map rep) where
  copy := h.copyAll
  assign as bs := by
    cases reallocates with
    | false => exact h.assignInPlace as bs
    | true => simp [Lifecycle.vector, h.copyAll, h.destroyAll]
  destroy := h.destroyAll

theorem Regular.pushBack (h : Regular ops rep) (reallocates : Bool) (as : List V) (a : V) :
    ops.pushBack reallocates (as.map rep) (rep a) = some ((as ++ [a]).map rep) := by
  cases reallocates with
  | false => simp [Lifecycle.pushBack, h.copy]
  | true => simp [Lifecycle.pushBack, h.copy, h.copyAll, h.destroyAll]

end Regular

end Objects
