import Mathlib.Data.List.Basic
import Mathlib.Data.List.Infix

/-!
# Resolving the components of a path

A path is a list of components: a name, the current directory or the parent. It is
resolved from a directory, which is the list of the names that lead to it; the root
is its own parent.

The reduced form of a path is what is left when each parent takes away the name in
front of it: a number of parents and then names. It does not depend on the directory,
and resolving it is resolving the path. A path stays inside its directory exactly
when its names begin with those its parents climb over.
-/

namespace Dragonfly

universe u

/-- A component of a path: the current directory, the parent of the directory, or the name of
one inside it. -/
inductive Component (Name : Type u) where
  | current
  | parent
  | child (name : Name)
deriving DecidableEq

/-- The reduced form of a path: how many parents are climbed first, and which names are
descended then. -/
structure Reduced (Name : Type u) where
  climbs : Nat
  names : List Name
deriving DecidableEq

namespace Component

variable {Name : Type u}

/-- Go from a directory to where a component leads: it stays, loses its last name, or gets one
more. -/
def enter (directory : List Name) : Component Name → List Name
  | .current => directory
  | .parent => directory.dropLast
  | .child name => directory ++ [name]

/-- Resolve a path from a directory: its components are entered one after the other. -/
def resolve (directory : List Name) (path : List (Component Name)) : List Name :=
  path.foldl enter directory

/-- Add a component to a reduced form: a parent takes away the last name, or is one more to
climb where there is no name. -/
def add (form : Reduced Name) : Component Name → Reduced Name
  | .current => form
  | .parent =>
      if form.names = [] then ⟨form.climbs + 1, []⟩ else ⟨form.climbs, form.names.dropLast⟩
  | .child name => ⟨form.climbs, form.names ++ [name]⟩

/-- The reduced form of a path, built up from its components in their order. -/
def reduce (path : List (Component Name)) : Reduced Name := path.foldl add ⟨0, []⟩

/-- Follow a reduced form from a directory: the directory loses as many names as are climbed,
and gets the names behind them. -/
def follow (directory : List Name) (form : Reduced Name) : List Name :=
  directory.take (directory.length - form.climbs) ++ form.names

/-- Adding a component to a form is going to the component. -/
theorem follow_add (directory : List Name) (form : Reduced Name) (component : Component Name) :
    follow directory (add form component) = enter (follow directory form) component := by
  cases component with
  | current => rfl
  | parent =>
    by_cases bare : form.names = []
    · rw [add, if_pos bare, follow, follow, enter, bare, List.append_nil, List.append_nil,
        List.dropLast_eq_take, List.length_take, List.take_take]
      congr 1
      dsimp only
      omega
    · rw [add, if_neg bare, follow, follow, enter, List.dropLast_append_of_ne_nil bare]
  | child name => rw [add, follow, follow, enter, List.append_assoc]

/-- Resolving a path from a directory leads to where following its reduced form leads. -/
theorem resolve_reduce (directory : List Name) (path : List (Component Name)) :
    resolve directory path = follow directory (reduce path) := by
  have general (form : Reduced Name) :
      path.foldl enter (follow directory form) = follow directory (path.foldl add form) := by
    induction path generalizing form with
    | nil => rfl
    | cons component rest inductionHypothesis =>
      rw [List.foldl_cons, List.foldl_cons, ← follow_add, inductionHypothesis]
  have start : follow directory ⟨0, []⟩ = directory := by
    rw [follow, Nat.sub_zero, List.take_length, List.append_nil]
  rw [resolve, reduce, ← general, start]

/-- The names of a path begin with those its parents climb over. -/
def Returns (directory : List Name) (form : Reduced Name) : Prop :=
  directory.drop (directory.length - form.climbs) <+: form.names

instance [DecidableEq Name] (directory : List Name) (form : Reduced Name) :
    Decidable (Returns directory form) :=
  inferInstanceAs (Decidable (_ <+: _))

/-- A path stays inside its directory exactly when it returns to it. -/
theorem inside_iff (directory : List Name) (path : List (Component Name)) :
    directory <+: resolve directory path ↔ Returns directory (reduce path) := by
  rw [resolve_reduce, follow, Returns]
  have split := List.take_append_drop (directory.length - (reduce path).climbs) directory
  conv =>
    lhs
    lhs
    rw [← split]
  exact List.prefix_append_right_inj _

end Component

end Dragonfly
