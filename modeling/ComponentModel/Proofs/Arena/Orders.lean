import ComponentModel.Proofs.Arena.Reading
import ComponentModel.Proofs.Arena.WellLinked
import Mathlib.Data.Fintype.Order
import Mathlib.Data.Set.Card
import Mathlib.Order.WellFoundedSet

/-!
# Traversals of trees

In an arena that is a tree, no node is below itself and no node is below two siblings. So following
links down comes to an end, and no node is listed twice on the way. The arena of every equation that
is read is a tree, before its references are scaled and afterwards.
-/

namespace ComponentModel.Equation

theorem Expr.size_pos {expr : Expr} (present : expr.isPresent = true) : 0 < expr.size := by
  cases expr with
  | absent => cases present
  | reference declaration => exact Nat.one_pos
  | number text => exact Nat.one_pos
  | apply operator left right => exact Nat.succ_pos _

namespace Arena

open Relation

variable {arena : Arena} {slot : Slot} {node? : Option Nat} {node parent other below : Nat}
  {nodes : List Nat}

/-! ## No way back -/

namespace IsTree

theorem isChild_lt (tree : IsTree arena) (isChild : arena.IsChild parent below) :
    below < arena.size := by
  obtain ⟨slot, _, hangs⟩ := isChild_iff.mp isChild
  exact tree.child_lt hangs

theorem parent_unique (tree : IsTree arena) (one : arena.IsChild parent below)
    (two : arena.IsChild other below) : parent = other :=
  Option.some.inj ((tree.parent_eq_some_iff.mpr one).symm.trans (tree.parent_eq_some_iff.mpr two))

/-- No node is below itself: its parent would be, and so on up to the root. -/
theorem acyclic (tree : IsTree arena) (node : Nat) : ¬TransGen arena.IsChild node node := by
  intro cyclic
  have inside : node < arena.size := by
    obtain ⟨_, _, isChild⟩ := TransGen.tail'_iff.mp cyclic
    exact tree.isChild_lt isChild
  revert cyclic
  apply (tree.reached node inside).induction
  intro slot node hangs above cyclic
  obtain ⟨parent, path, isChild⟩ := TransGen.tail'_iff.mp cyclic
  have belongs : slot.parent? = some parent :=
    (tree.parent_eq hangs).symm.trans (tree.parent_eq_some_iff.mpr isChild)
  exact above parent belongs (.head' isChild path)

theorem wellFoundedOn (tree : IsTree arena) :
    {node | node < arena.size}.WellFoundedOn
      fun below above => TransGen arena.IsChild above below := by
  have order : IsStrictOrder Nat fun below above => TransGen arena.IsChild above below :=
    { irrefl := tree.acyclic
      trans := fun _ _ _ first second => second.trans first }
  exact (Set.finite_lt_nat arena.size).wellFoundedOn

/-- A node that is below a sibling is the sibling itself. -/
theorem eq_of_below (tree : IsTree arena) {one two : Nat} (isChild : arena.IsChild parent one)
    (isSibling : arena.IsChild parent two) (path : ReflTransGen arena.IsChild one two) :
    one = two := by
  rw [ReflTransGen.cases_tail_iff] at path
  rcases path with same | ⟨last, path, isLast⟩
  · exact same.symm
  · obtain rfl := tree.parent_unique isLast isSibling
    exact absurd (TransGen.head' isChild path) (tree.acyclic _)

/-- Nothing is below both sides of a node. -/
theorem apart (tree : IsTree arena) {left right : Nat} (isLeft : arena.left? parent = some left)
    (isRight : arena.right? parent = some right) (belowLeft : ReflTransGen arena.IsChild left node)
    (belowRight : ReflTransGen arena.IsChild right node) : False := by
  have different : left ≠ right := by
    rintro rfl
    have same : Slot.left parent = .right parent := tree.slot_eq isLeft isRight
    cases same
  have unique : Relator.RightUnique (Function.swap arena.IsChild) :=
    fun _ _ _ one two => tree.parent_unique one two
  cases ReflTransGen.total_of_right_unique unique belowLeft.swap belowRight.swap with
  | inl path => exact different.symm (tree.eq_of_below (.inr isRight) (.inl isLeft) path.swap)
  | inr path => exact different (tree.eq_of_below (.inl isLeft) (.inr isRight) path.swap)

/-! ## Orders -/

theorem exists_listsUp_node (tree : IsTree arena) (inside : node < arena.size) :
    ∃ nodes, arena.ListsUp (some node) nodes := by
  refine tree.wellFoundedOn.induction (P := fun node => ∃ nodes, arena.ListsUp (some node) nodes)
    inside ?_
  intro node _ ih
  have below (child? : Option Nat) (isChild : ∀ child, child? = some child → arena.IsChild node child) :
      ∃ nodes, arena.ListsUp child? nodes := by
    cases child? with
    | none => exact ⟨[], .nothing⟩
    | some child => exact ih child (tree.isChild_lt (isChild child rfl)) (.single (isChild child rfl))
  obtain ⟨left, onLeft⟩ := below (arena.left? node) fun _ => .inl
  obtain ⟨right, onRight⟩ := below (arena.right? node) fun _ => .inr
  exact ⟨_, .node onLeft onRight⟩

/-- Following links down from the root ends. -/
theorem exists_listsUp (tree : IsTree arena) : ∃ nodes, arena.ListsUp arena.root nodes := by
  cases isRoot : arena.root with
  | none => exact ⟨[], .nothing⟩
  | some root =>
      have hangs : arena.child? .root = some root := isRoot
      exact tree.exists_listsUp_node (tree.child_lt hangs)

theorem nodup_of_listsUp (tree : IsTree arena) (lists : arena.ListsUp node? nodes) :
    nodes.Nodup := by
  induction lists with
  | nothing => exact List.nodup_nil
  | @node top left right onLeft onRight ihLeft ihRight =>
      have disjoint : left.Disjoint right := by
        intro node inLeft inRight
        obtain ⟨leftTop, isLeft, belowLeft⟩ := onLeft.mem_iff.mp inLeft
        obtain ⟨rightTop, isRight, belowRight⟩ := onRight.mem_iff.mp inRight
        exact tree.apart isLeft isRight belowLeft belowRight
      have notBelow : top ∉ left ++ right := by
        rw [List.mem_append, onLeft.mem_iff, onRight.mem_iff]
        rintro (⟨child, isLeft, path⟩ | ⟨child, isRight, path⟩)
        · exact tree.acyclic top (.head' (.inl isLeft) path)
        · exact tree.acyclic top (.head' (.inr isRight) path)
      apply (ihLeft.append ihRight disjoint).append (List.nodup_singleton top)
      rw [List.disjoint_singleton]
      exact notBelow

theorem reached_iff (tree : IsTree arena) : arena.Reached node ↔ node < arena.size := by
  constructor
  · rintro ⟨root, isRoot, path⟩
    cases path with
    | refl =>
        have hangs : arena.child? .root = some node := isRoot
        exact tree.child_lt hangs
    | tail _ isChild => exact tree.isChild_lt isChild
  · exact tree.reached node

/-- From the root, every node of the arena is listed once. -/
theorem perm_of_listsUp (tree : IsTree arena) (lists : arena.ListsUp arena.root nodes) :
    nodes.Perm (List.range arena.size) := by
  rw [List.perm_ext_iff_of_nodup (tree.nodup_of_listsUp lists) List.nodup_range]
  intro node
  rw [List.mem_range, lists.mem_iff]
  exact tree.reached_iff

end IsTree

theorem length_le_of_perm (perm : nodes.Perm (List.range arena.size)) :
    nodes.length ≤ arena.size := by
  rw [perm.length_eq, List.length_range]

/-- An arena is the tree of an equation: it has a root, both traversals end, and each of them lists
every node of the arena once, the one behind its children and the other in front of them. -/
structure IsTraversed (arena : Arena) : Prop extends IsTree arena where
  root : ∃ root, arena.root = some root ∧ arena.parent? root = none
  /-- Links down and links up are inverse to each other. -/
  inverse : ∀ parent below, arena.parent? below = some parent ↔ arena.IsChild parent below
  listsUp : arena.ListsUp arena.root arena.postOrder
  takesOff : arena.TakesOff arena.root.toList arena.preOrder
  postOrder_perm : arena.postOrder.Perm (List.range arena.size)
  preOrder_perm : arena.preOrder.Perm (List.range arena.size)
  below_first : ∀ parent below, arena.IsChild parent below → [below, parent].Sublist arena.postOrder
  above_first : ∀ parent below, arena.IsChild parent below → [parent, below].Sublist arena.preOrder
  size_eq : arena.size = {node | arena.Reached node}.ncard

theorem IsTree.isTraversed (tree : IsTree arena) (present : 0 < arena.size) :
    arena.IsTraversed := by
  obtain ⟨up, lists⟩ := tree.exists_listsUp
  obtain ⟨down, listsDown⟩ := lists.exists_listsDown
  have upPerm := tree.perm_of_listsUp lists
  have downPerm := (listsDown.perm lists).trans upPerm
  have isUp : arena.postOrder = up := lists.nodesBelow_eq (length_le_of_perm upPerm)
  have isDown : arena.preOrder = down := listsDown.preOrder_eq (length_le_of_perm downPerm)
  have listed {parent below : Nat} (isChild : arena.IsChild parent below) :
      parent ∈ List.range arena.size :=
    List.mem_range.mpr (tree.parent_lt (tree.parent_eq_some_iff.mpr isChild))
  obtain ⟨root, isRoot, -⟩ := tree.reached 0 present
  constructor
  case toIsTree => exact tree
  case root => exact ⟨root, isRoot, tree.parent_eq (show arena.child? .root = some root from isRoot)⟩
  case inverse => exact fun _ _ => tree.parent_eq_some_iff
  case listsUp => rwa [isUp]
  case takesOff =>
    rw [isDown]
    simpa using listsDown.takesOff .nil
  case postOrder_perm => rwa [isUp]
  case preOrder_perm => rwa [isDown]
  case below_first =>
    intro parent below isChild
    rw [isUp]
    exact lists.sublist isChild (upPerm.mem_iff.mpr (listed isChild))
  case above_first =>
    intro parent below isChild
    rw [isDown]
    exact listsDown.sublist isChild (downPerm.mem_iff.mpr (listed isChild))
  case size_eq =>
    have all : {node | arena.Reached node} = Set.Iio arena.size := by
      ext node
      exact tree.reached_iff
    rw [all, ← Finset.coe_Iio, Set.ncard_coe_finset, Nat.card_Iio]

end Arena

/-- The arena of an equation that is read is the tree of its expression, which both traversals list
completely. The same holds after its references have been scaled, whatever the factors are. -/
theorem draftEquation_isTraversed {declaration? : String → Option Nat} {element : Markup.Element}
    {arena : Arena} (drafted : (draftEquation declaration? element).1 = some arena)
    (rule : FactorRule) :
    arena = .ofExpr (readEquation declaration? element).1 ∧ arena.IsTraversed ∧
      (arena.scale rule).IsTraversed := by
  obtain ⟨present, isArena⟩ := draftEquation_eq_some_iff.mp drafted
  have tree : arena.IsTree := isArena ▸ .ofExpr _
  have filled : 0 < arena.size := by
    rw [isArena, Arena.size_ofExpr]
    exact Expr.size_pos present
  constructor
  · exact isArena
  · constructor
    · exact tree.isTraversed filled
    · exact (tree.scale rule).isTraversed (Nat.lt_of_lt_of_le filled (arena.size_le_scale rule))

/-- An equation for the rate of `x` by `t`, in which `b` is not declared. -/
def rateElement : Markup.Element :=
  .mk "apply" [] [.mk "eq" [] [] "",
    .mk "apply" [] [.mk "diff" [] [] "", .mk "bvar" [] [.mk "ci" [] [] "t"] "",
      .mk "ci" [] [] "x"] "",
    .mk "apply" [] [.mk "plus" [] [] "", .mk "ci" [] [] "a", .mk "ci" [] [] "b",
      .mk "cn" [] [] "1"] ""] ""

def rateNames : String → Option Nat
  | "t" => some 0
  | "x" => some 1
  | "a" => some 2
  | _ => none

/-- With a factor for `t`, the nine nodes of the equation become eleven. -/
theorem draftEquation_rateElement :
    ∃ arena, (draftEquation rateNames rateElement).1 = some arena ∧
      arena.size = 9 ∧ arena.IsTraversed ∧
      (arena.scale fun declaration => if declaration = 0 then some ⟨"60", "1"⟩ else none).size = 11 ∧
      (arena.scale fun declaration =>
        if declaration = 0 then some ⟨"60", "1"⟩ else none).IsTraversed := by
  have drafted : (draftEquation rateNames rateElement).1 =
      some (.ofExpr (readEquation rateNames rateElement).1) := by decide +kernel
  obtain ⟨-, traversed, scaled⟩ := draftEquation_isTraversed drafted
    fun declaration => if declaration = 0 then some ⟨"60", "1"⟩ else none
  exact ⟨_, drafted, by decide, traversed, by decide, scaled⟩

end ComponentModel.Equation
