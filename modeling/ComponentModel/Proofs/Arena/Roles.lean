import ComponentModel.Proofs.Arena.Building
import ComponentModel.Proofs.Mentions

/-!
# Roles of the nodes of an arena

The role of a reference can be told from below, by the operators at its parent and at the parent of
its parent. It is the role that the reference has from above in the expression that the arena holds,
so the references of each role are listed in the order in which the expression mentions them.
-/

namespace ComponentModel.Equation.Arena

variable {arena : Arena} {slot : Slot} {expr : Expr} {node below : Nat} {operator : Operator}
  {nodes : List Nat} {role : Role}

/-- The operator at the parent of a node. -/
def operatorAbove? (arena : Arena) (node : Nat) : Option Operator :=
  match (arena.parent? node).bind arena.label? with
  | some (.operator operator) => some operator
  | _ => none

/-- The parent of a node is a derivative. -/
def isDifferentiated (arena : Arena) (node : Nat) : Bool :=
  arena.operatorAbove? node == some .diff

/-- The parent of a node is a bound variable, and its parent is a derivative. -/
def isBound (arena : Arena) (node : Nat) : Bool :=
  arena.operatorAbove? node == some .bvar &&
    (arena.parent? node).bind arena.operatorAbove? == some .diff

/-- What a node refers to. -/
def reference? (arena : Arena) (node : Nat) : Option Nat :=
  match arena.label? node with
  | some (.reference declaration) => some declaration
  | _ => none

/-- What the accepted nodes refer to, in the order in which the traversal comes to them. -/
def references (arena : Arena) (accept : Nat → Bool) : List Nat :=
  (arena.preOrder.filter accept).filterMap arena.reference?

/-- The role of a node, told from below. -/
def roleOf (arena : Arena) (node : Nat) : Role :=
  if arena.isDifferentiated node then .differentiated
  else if arena.isBound node then .bound
  else .plain

/-- What a node refers to, with its role. -/
def mention? (arena : Arena) (node : Nat) : Option (Role × Nat) :=
  (arena.reference? node).map (arena.roleOf node, ·)

theorem roleOf_root (unlinked : arena.parent? node = none) : arena.roleOf node = .plain := by
  simp [roleOf, isDifferentiated, isBound, operatorAbove?, unlinked]

theorem isDifferentiated_eq (node : Nat) :
    arena.isDifferentiated node = (arena.roleOf node == .differentiated) := by
  unfold roleOf
  cases arena.isDifferentiated node with
  | true => rfl
  | false => cases arena.isBound node <;> rfl

theorem isPlain_eq (node : Nat) :
    (!arena.isDifferentiated node && !arena.isBound node) = (arena.roleOf node == .plain) := by
  unfold roleOf
  cases arena.isDifferentiated node with
  | true => rfl
  | false => cases arena.isBound node <;> rfl

/-- The role of a node from below is the one that its parent gives it from above. -/
theorem roleOf_child (linked : arena.parent? below = some node)
    (label : arena.label? node = some (.operator operator)) :
    arena.roleOf below = childRole operator (arena.roleOf node) := by
  have above : arena.operatorAbove? below = some operator := by
    simp [operatorAbove?, linked, label]
  have differentiated : arena.isDifferentiated below = (operator == .diff) := by
    simp [isDifferentiated, above]
  have bound : arena.isBound below =
      (operator == .bvar && arena.roleOf node == .differentiated) := by
    rw [← isDifferentiated_eq]
    simp [isBound, isDifferentiated, above, linked]
  rw [roleOf, differentiated, bound, childRole, boundRole, argumentRole]
  cases isBvar : operator == .bvar with
  | true =>
      obtain rfl := eq_of_beq isBvar
      simp
  | false => simp

/-- The nodes of an expression mention what the expression mentions. -/
theorem Holds.exists_listsDown (holds : Holds arena slot expr nodes)
    (stands : ∀ node, arena.child? slot = some node → arena.roleOf node = role) :
    ∃ down, arena.ListsDown (arena.child? slot) down ∧
      down.filterMap arena.mention? = expr.mentions role := by
  induction holds generalizing role with
  | absent empty =>
      rw [empty]
      exact ⟨[], .nothing, rfl⟩
  | @reference slot node declaration hangs _ label noLeft noRight =>
      rw [hangs]
      refine ⟨[node], .leaf noLeft noRight, ?_⟩
      simp [mention?, reference?, label, stands node hangs, Expr.mentions]
  | @number slot node text hangs _ label noLeft noRight =>
      rw [hangs]
      refine ⟨[node], .leaf noLeft noRight, ?_⟩
      simp [mention?, reference?, label, Expr.mentions]
  | @apply slot node operator left right leftNodes rightNodes hangs _ label onLeft onRight ihLeft
      ihRight =>
      have below : ∀ child, arena.parent? child = some node →
          arena.roleOf child = childRole operator role := by
        intro child linked
        rw [roleOf_child linked label, stands node hangs]
      obtain ⟨leftDown, downLeft, mentionsLeft⟩ :=
        ihLeft fun child isLeft => below child (onLeft.linked isLeft)
      obtain ⟨rightDown, downRight, mentionsRight⟩ :=
        ihRight fun child isRight => below child (onRight.linked isRight)
      rw [hangs]
      refine ⟨_, .node downLeft downRight, ?_⟩
      simp [mention?, reference?, label, Expr.mentions, ← mentionsLeft, ← mentionsRight]

theorem mentions_preOrder (represents : arena.Represents expr) :
    arena.preOrder.filterMap arena.mention? = expr.mentions .plain := by
  obtain ⟨nodes, holds, nodup⟩ := represents
  obtain ⟨down, lists, mentions⟩ := holds.exists_listsDown fun node isRoot =>
    roleOf_root (holds.linked isRoot)
  have few : down.length ≤ arena.size := by
    rw [(lists.perm holds.listsUp).length_eq]
    exact holds.length_le_size nodup
  rw [lists.preOrder_eq few, mentions]

/-- The nodes of wanted roles refer to what the expression mentions in these roles. -/
theorem references_eq (represents : arena.Represents expr) {accept : Nat → Bool}
    (wanted : Role → Bool) (accepts : ∀ node, accept node = wanted (arena.roleOf node)) :
    arena.references accept =
      ((expr.mentions .plain).filter fun mention => wanted mention.1).map Prod.snd := by
  rw [← mentions_preOrder represents, references, funext accepts, List.filterMap_filter,
    List.filter_filterMap, List.map_filterMap]
  congr 1
  funext node
  rw [mention?]
  cases arena.reference? node with
  | none => simp
  | some declaration =>
      cases isWanted : wanted (arena.roleOf node) <;> simp [Option.filter, isWanted]

theorem references_all (represents : arena.Represents expr) :
    arena.references (fun _ => true) = (expr.mentions .plain).map Prod.snd := by
  rw [references_eq represents (fun _ => true) fun _ => rfl, List.filter_true]

end ComponentModel.Equation.Arena
