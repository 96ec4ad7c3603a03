import ComponentModel.Proofs.Arena.Traversal
import ComponentModel.Proofs.Arena.Trees
import Mathlib.Data.List.Perm.Subperm

/-!
# Building an arena

Every expression can be put into an arena and read from it again. An arena represents an expression
if it holds the expression at its root and no node occurs twice; what hangs nowhere does not matter.
-/

namespace ComponentModel.Equation.Arena

variable {arena next : Arena} {slot : Slot} {expr : Expr} {nodes : List Nat} {node : Nat}

/-- An arena is a tree with an expression at its root. -/
def Represents (arena : Arena) (expr : Expr) : Prop :=
  ∃ nodes, Holds arena .root expr nodes ∧ nodes.Nodup

/-! ## Reading -/

@[simp] theorem exprAt_none (arena : Arena) (depth : Nat) :
    arena.exprAt depth none = .absent := by
  cases depth <;> rfl

/-- The nodes of an expression are the ones that the recursion lists. -/
theorem Holds.listsUp (holds : Holds arena slot expr nodes) :
    arena.ListsUp (arena.child? slot) nodes := by
  induction holds with
  | absent empty =>
      rw [empty]
      exact .nothing
  | reference hangs _ _ noLeft noRight =>
      rw [hangs]
      exact .leaf noLeft noRight
  | number hangs _ _ noLeft noRight =>
      rw [hangs]
      exact .leaf noLeft noRight
  | apply hangs _ _ _ _ ihLeft ihRight =>
      rw [hangs]
      exact .node ihLeft ihRight

theorem Holds.exprAt_eq (holds : Holds arena slot expr nodes) {depth : Nat}
    (deep : nodes.length ≤ depth) : arena.exprAt depth (arena.child? slot) = expr := by
  induction holds generalizing depth with
  | absent empty => simp [empty]
  | reference hangs _ label =>
      obtain ⟨depth, rfl⟩ := Nat.exists_eq_add_of_le' deep
      simp [hangs, exprAt, label]
  | number hangs _ label =>
      obtain ⟨depth, rfl⟩ := Nat.exists_eq_add_of_le' deep
      simp [hangs, exprAt, label]
  | @apply slot node _ _ _ leftNodes rightNodes hangs _ label _ _ ihLeft ihRight =>
      simp only [List.length_append, List.length_singleton] at deep
      obtain ⟨depth, rfl⟩ := Nat.exists_eq_add_of_le' (Nat.le_of_add_left_le deep)
      have onLeft := @ihLeft depth (by omega)
      have onRight := @ihRight depth (by omega)
      simp only [child?_left, child?_right] at onLeft onRight
      simp [hangs, exprAt, label, onLeft, onRight]

/-- An expression has no more nodes than its arena. -/
theorem Holds.length_le_size (holds : Holds arena slot expr nodes) (nodup : nodes.Nodup) :
    nodes.length ≤ arena.size := by
  have within : nodes ⊆ List.range arena.size :=
    fun node membership => List.mem_range.mpr (holds.lt_size node membership)
  simpa using (List.subperm_of_subset nodup within).length_le

theorem Represents.expr_eq (represents : arena.Represents expr) : arena.expr = expr := by
  obtain ⟨nodes, holds, nodup⟩ := represents
  exact holds.exprAt_eq (holds.length_le_size nodup)

theorem Holds.postOrder_eq (holds : Holds arena .root expr nodes) (nodup : nodes.Nodup) :
    arena.postOrder = nodes :=
  holds.listsUp.nodesBelow_eq (holds.length_le_size nodup)

/-! ## Building -/

/-- The root belongs to no node, so that there is nothing to be inside of the arena. -/
theorem inside_root (arena : Arena) :
    ∀ parent, Slot.root.parent? = some parent → parent < arena.size :=
  nofun

section

variable {label : Label}

theorem label?_pushAt : (arena.pushAt slot label).label? arena.size = some label := by
  simp [pushAt]

theorem parent?_pushAt : (arena.pushAt slot label).parent? arena.size = slot.parent? := by
  simp [pushAt, parent?_setChild]

@[simp] theorem size_pushAt : (arena.pushAt slot label).size = arena.size + 1 := by
  simp [pushAt]

theorem child?_pushAt_of_ne {other : Slot} (different : other ≠ slot) :
    (arena.pushAt slot label).child? other = arena.child? other := by
  cases other with
  | root => simp [pushAt, Ne.symm different]
  | left parent => simp [pushAt, left?_setChild, Ne.symm different]
  | right parent => simp [pushAt, right?_setChild, Ne.symm different]

/-- A new node changes nothing but the slot where it hangs. -/
theorem frame_pushAt : Frame slot [] arena (arena.pushAt slot label) where
  size_le := by simp
  label node inside := by simp [pushAt, Nat.ne_of_lt inside]
  parent node inside _ := by simp [pushAt, parent?_setChild, Nat.ne_of_gt inside]
  child other different _ := child?_pushAt_of_ne different

variable (inside : ∀ parent, slot.parent? = some parent → parent < arena.size)

include inside

/-- A slot of the next node is none that is there already. -/
theorem ne_of_new {below : Slot} (belongs : below.parent? = some arena.size) : below ≠ slot := by
  rintro rfl
  exact Nat.lt_irrefl _ (inside _ belongs)

theorem child?_pushAt : (arena.pushAt slot label).child? slot = some arena.size := by
  cases slot with
  | root => simp [pushAt]
  | left parent => simp [pushAt, left?_setChild, Nat.lt_succ_of_lt (inside parent rfl)]
  | right parent => simp [pushAt, right?_setChild, Nat.lt_succ_of_lt (inside parent rfl)]

/-- Nothing hangs below a new node. -/
theorem child?_pushAt_eq_none (below : Slot) (belongs : below.parent? = some arena.size) :
    (arena.pushAt slot label).child? below = none := by
  have different := ne_of_new inside belongs
  have before : arena.child? below = none := child?_eq_none belongs (Nat.le_refl _)
  cases below with
  | root => cases belongs
  | left parent => simpa [pushAt, left?_setChild, Ne.symm different] using before
  | right parent => simpa [pushAt, right?_setChild, Ne.symm different] using before

end

/-- Adding an expression adds as many nodes as it has. -/
@[simp] theorem size_addAt (arena : Arena) (slot : Slot) (expr : Expr) :
    (arena.addAt slot expr).size = arena.size + expr.size := by
  induction expr generalizing arena slot with
  | absent => rfl
  | reference declaration => exact size_pushAt
  | number text => exact size_pushAt
  | apply operator left right ihLeft ihRight =>
      simp only [addAt, ihLeft, ihRight, size_pushAt, Expr.size]
      omega

@[simp] theorem size_ofExpr (expr : Expr) : (ofExpr expr).size = expr.size := by
  rw [ofExpr, size_addAt]
  exact Nat.zero_add _

/-- Adding an expression to an empty slot changes nothing but the slot. -/
theorem exists_rewrites_addAt (expr : Expr) {arena : Arena} {slot : Slot}
    (inside : ∀ parent, slot.parent? = some parent → parent < arena.size)
    (empty : arena.child? slot = none) :
    ∃ held, Rewrites slot [] arena (arena.addAt slot expr) expr held := by
  induction expr generalizing arena slot with
  | absent => exact ⟨[], .refl (.absent empty) List.nodup_nil⟩
  | reference declaration =>
      have holds : Holds (arena.pushAt slot (.reference declaration)) slot
          (.reference declaration) [arena.size] :=
        .reference (child?_pushAt inside) parent?_pushAt label?_pushAt
          (child?_pushAt_eq_none inside (.left arena.size) rfl)
          (child?_pushAt_eq_none inside (.right arena.size) rfl)
      exact ⟨_, holds, List.nodup_singleton _, by simp, frame_pushAt⟩
  | number text =>
      have holds : Holds (arena.pushAt slot (.number text)) slot (.number text) [arena.size] :=
        .number (child?_pushAt inside) parent?_pushAt label?_pushAt
          (child?_pushAt_eq_none inside (.left arena.size) rfl)
          (child?_pushAt_eq_none inside (.right arena.size) rfl)
      exact ⟨_, holds, List.nodup_singleton _, by simp, frame_pushAt⟩
  | apply operator left right ihLeft ihRight =>
      have label : (arena.pushAt slot (.operator operator)).label? arena.size =
          some (.operator operator) := label?_pushAt
      have within := lt_size_of_label? label
      obtain ⟨leftHeld, first⟩ := @ihLeft (arena.pushAt slot (.operator operator))
        (.left arena.size) (fun parent isParent => Option.some.inj isParent ▸ within)
        (child?_pushAt_eq_none inside _ rfl)
      have withinNext := Nat.lt_of_lt_of_le within first.frame.size_le
      have rightEmpty : ((arena.pushAt slot (.operator operator)).addAt (.left arena.size)
          left).child? (.right arena.size) = none := by
        rw [first.frame.child (.right arena.size) nofun (outside_right.mpr ⟨within, by simp⟩),
          child?_pushAt_eq_none inside (.right arena.size) rfl]
      obtain ⟨rightHeld, second⟩ := ihRight
        (fun parent isParent => Option.some.inj isParent ▸ withinNext) rightEmpty
      have outside : (arena.pushAt slot (.operator operator)).Outside ([] ++ [] ++ [arena.size])
          slot := by
        intro parent isParent
        have bound := inside parent isParent
        exact ⟨Nat.lt_trans bound within, by simp [Nat.ne_of_lt bound]⟩
      have rewrites := Rewrites.apply (child?_pushAt inside) label outside first second
        parent?_pushAt (List.nodup_singleton _) nofun
      refine ⟨_, rewrites.holds, rewrites.nodup, fun node membership => Or.inr ?_,
        frame_pushAt.trans rewrites.frame (by simp)⟩
      rcases rewrites.within node membership with same | new
      · obtain rfl : node = arena.size := by simpa using same
        exact Nat.le_refl _
      · exact Nat.le_trans frame_pushAt.size_le new

theorem frame_addAt (expr : Expr)
    (inside : ∀ parent, slot.parent? = some parent → parent < arena.size)
    (empty : arena.child? slot = none) : Frame slot [] arena (arena.addAt slot expr) := by
  obtain ⟨_, rewrites⟩ := exists_rewrites_addAt expr inside empty
  exact rewrites.frame

/-- Every expression is represented by an arena. -/
theorem represents_ofExpr (expr : Expr) : (ofExpr expr).Represents expr := by
  have empty : child? ⟨[], none⟩ .root = none := rfl
  obtain ⟨held, rewrites⟩ :=
    exists_rewrites_addAt expr (inside_root _) empty
  exact ⟨held, rewrites.holds, rewrites.nodup⟩

end ComponentModel.Equation.Arena
