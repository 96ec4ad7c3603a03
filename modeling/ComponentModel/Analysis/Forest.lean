/-!
# Forests of equivalent declarations

Every declaration has a parent: itself, if it stands for its class, and an earlier declaration of
its class otherwise. Whoever follows the parents of a declaration to its root attaches all
declarations on the way to the root, so that the way is short the next time.
-/

namespace ComponentModel.Analysis

/-- The parents of declarations. -/
abbrev Forest := List Nat

namespace Forest

/-- Declarations that stand for themselves. -/
def single (count : Nat) : Forest :=
  List.range count

/-- The parent of a declaration. -/
def parent (forest : Forest) (declaration : Nat) : Nat :=
  forest.getD declaration declaration

/-- Follow parents to a declaration that is its own parent, `steps` times at most. -/
def rootWithin (forest : Forest) : (steps : Nat) → (declaration : Nat) → Nat
  | 0, declaration => declaration
  | steps + 1, declaration =>
      if forest.parent declaration == declaration then
        declaration
      else
        rootWithin forest steps (forest.parent declaration)

/-- The root of a declaration. A parent other than the declaration itself is an earlier one, so no
way is longer than the number of the declaration. -/
def root (forest : Forest) (declaration : Nat) : Nat :=
  forest.rootWithin declaration declaration

/-- Attach the declarations on the way from one to its root, `steps` declarations at most. The way
ends at the first declaration that has the root as its parent. -/
def attachWithin (root : Nat) : (steps : Nat) → Forest → (declaration : Nat) → Forest
  | 0, forest, _ => forest
  | steps + 1, forest, declaration =>
      if forest.parent declaration == root then
        forest
      else
        attachWithin root steps (forest.set declaration root) (forest.parent declaration)

/-- The root of a declaration, and the forest with the way to it made short. -/
def find (forest : Forest) (declaration : Nat) : Nat × Forest :=
  let root := forest.root declaration
  (root, attachWithin root declaration forest declaration)

/-- Make the classes of two declarations one. The earlier root stands for it. -/
def unite (forest : Forest) (pair : Nat × Nat) : Forest :=
  let (one, forest) := forest.find pair.1
  let (other, forest) := Forest.find forest pair.2
  if one == other then forest else forest.set (max one other) (min one other)

/-- The roots of declarations, found one after the other. -/
def roots : Forest → (declarations : List Nat) → List Nat
  | _, [] => []
  | forest, declaration :: rest =>
      let (root, forest) := forest.find declaration
      root :: roots forest rest

end Forest

end ComponentModel.Analysis
