import ComponentModel.Proofs.Arena.Building

/-!
# Arenas that are trees

An arena is a tree if every node hangs in exactly one slot, links back to the node of that slot and
can be reached from the root. Two changes keep it one: a new node is hung in an empty slot, and a
product with a factor is put between a slot and what hangs there. Everything that is built, and
everything that is scaled, comes about by these two.
-/

namespace ComponentModel.Equation.Arena

open Relation

variable {rule : FactorRule} {arena next : Arena} {slot other : Slot} {label : Label}
  {factor : String} {node parent below : Nat}

/-- A node can be reached from the root. -/
def Reached (arena : Arena) (node : Nat) : Prop :=
  ∃ root, arena.root = some root ∧ ReflTransGen arena.IsChild root node

/-- An arena is a tree, or has no nodes at all. -/
structure IsTree (arena : Arena) : Prop where
  /-- What hangs in a slot is a node that links back to the node of the slot; the root links to
  none. -/
  linked : ∀ slot node, arena.child? slot = some node →
    node < arena.size ∧ arena.parent? node = slot.parent?
  /-- Every node hangs in exactly one slot. -/
  hung : ∀ node < arena.size, ∃! slot, arena.child? slot = some node
  reached : ∀ node < arena.size, arena.Reached node

/-! ## Reaching nodes -/

theorem Reached.root {root : Nat} (isRoot : arena.root = some root) : arena.Reached root :=
  ⟨root, isRoot, .refl⟩

theorem Reached.tail (reached : arena.Reached parent) (isChild : arena.IsChild parent below) :
    arena.Reached below := by
  obtain ⟨root, isRoot, path⟩ := reached
  exact ⟨root, isRoot, path.tail isChild⟩

/-- What hangs in a slot is reached if the slot is. -/
theorem Reached.hangs (reached : ∀ parent, slot.parent? = some parent → arena.Reached parent)
    (hangs : arena.child? slot = some below) : arena.Reached below := by
  cases slot with
  | root => exact .root hangs
  | left parent => exact (reached parent rfl).tail (.inl hangs)
  | right parent => exact (reached parent rfl).tail (.inr hangs)

/-- What holds for whatever hangs in a slot, if it holds for the node of the slot, holds for all
nodes that can be reached. -/
theorem Reached.induction {P : Nat → Prop} (reached : arena.Reached node)
    (step : ∀ slot node, arena.child? slot = some node →
      (∀ parent, slot.parent? = some parent → P parent) → P node) : P node := by
  obtain ⟨root, isRoot, path⟩ := reached
  induction path with
  | refl => exact step .root root isRoot nofun
  | @tail parent child _ isChild ih =>
      obtain ⟨slot, belongs, hangs⟩ := isChild_iff.mp isChild
      apply step slot child hangs
      intro other same
      obtain rfl := Option.some.inj (belongs.symm.trans same)
      exact ih

/-- A slot where something hangs belongs to a node that is there. -/
theorem slot_inside (hangs : arena.child? slot = some node) :
    ∀ parent, slot.parent? = some parent → parent < arena.size := by
  intro parent belongs
  by_contra outside
  rw [child?_eq_none belongs (Nat.le_of_not_lt outside)] at hangs
  cases hangs

namespace IsTree

theorem child_lt (tree : IsTree arena) (hangs : arena.child? slot = some node) :
    node < arena.size :=
  (tree.linked slot node hangs).1

theorem parent_eq (tree : IsTree arena) (hangs : arena.child? slot = some node) :
    arena.parent? node = slot.parent? :=
  (tree.linked slot node hangs).2

theorem slot_eq (tree : IsTree arena) (one : arena.child? slot = some node)
    (two : arena.child? other = some node) : slot = other :=
  (tree.hung node (tree.child_lt one)).unique one two

/-- Links down and links up are inverse to each other. -/
theorem parent_eq_some_iff (tree : IsTree arena) :
    arena.parent? below = some parent ↔ arena.IsChild parent below := by
  constructor
  · intro linked
    have inside : below < arena.size := by
      by_contra outside
      simp [parent?, List.getElem?_eq_none (Nat.le_of_not_lt outside)] at linked
    obtain ⟨slot, hangs, -⟩ := tree.hung below inside
    exact isChild_of_hangs ((tree.parent_eq hangs).symm.trans linked) hangs
  · intro isChild
    obtain ⟨slot, belongs, hangs⟩ := isChild_iff.mp isChild
    rw [tree.parent_eq hangs, belongs]

theorem parent_lt (tree : IsTree arena) (linked : arena.parent? node = some parent) :
    parent < arena.size := by
  obtain ⟨slot, belongs, hangs⟩ := isChild_iff.mp (tree.parent_eq_some_iff.mp linked)
  exact slot_inside hangs parent belongs

/-! ## New nodes -/

theorem empty : IsTree ⟨[], none⟩ where
  linked slot node hangs := by cases slot <;> cases hangs
  hung node inside := absurd inside (Nat.not_lt_zero node)
  reached node inside := absurd inside (Nat.not_lt_zero node)

/-- Hanging a new node in an empty slot leaves a tree. -/
theorem pushAt (tree : IsTree arena) (empty : arena.child? slot = none)
    (inside : ∀ parent, slot.parent? = some parent → parent < arena.size) :
    IsTree (arena.pushAt slot label) := by
  have hangsHere : (arena.pushAt slot label).child? slot = some arena.size := child?_pushAt inside
  -- The slot was empty, so that whatever hung somewhere still hangs there.
  have keeps (other : Slot) (node : Nat) (hangs : arena.child? other = some node) :
      other ≠ slot ∧ (arena.pushAt slot label).child? other = some node := by
    have different : other ≠ slot := by
      rintro rfl
      rw [empty] at hangs
      cases hangs
    exact ⟨different, (child?_pushAt_of_ne different).trans hangs⟩
  have parents (node : Nat) (isOld : node < arena.size) :
      (arena.pushAt slot label).parent? node = arena.parent? node :=
    frame_pushAt.parent node isOld (by simp)
  constructor
  case linked =>
    intro other node hangs
    by_cases isSlot : other = slot
    · subst isSlot
      obtain rfl := Option.some.inj (hangsHere.symm.trans hangs)
      exact ⟨by simp, parent?_pushAt⟩
    · rw [child?_pushAt_of_ne isSlot] at hangs
      have isOld := tree.child_lt hangs
      exact ⟨by simp; omega, (parents node isOld).trans (tree.parent_eq hangs)⟩
  case hung =>
    intro node isNode
    rw [size_pushAt, Nat.lt_succ_iff_lt_or_eq] at isNode
    cases isNode with
    | inl isOld =>
        obtain ⟨home, hangs, unique⟩ := tree.hung node isOld
        apply ExistsUnique.intro home (keeps home node hangs).2
        intro other hangsOther
        by_cases isSlot : other = slot
        · subst isSlot
          obtain rfl := Option.some.inj (hangsHere.symm.trans hangsOther)
          exact absurd isOld (Nat.lt_irrefl _)
        · exact unique other ((child?_pushAt_of_ne isSlot).symm.trans hangsOther)
    | inr isNew =>
        subst isNew
        apply ExistsUnique.intro slot hangsHere
        intro other hangsOther
        by_contra different
        rw [child?_pushAt_of_ne different] at hangsOther
        exact Nat.lt_irrefl _ (tree.child_lt hangsOther)
  case reached =>
    have kept (node : Nat) (isOld : node < arena.size) :
        (arena.pushAt slot label).Reached node := by
      apply (tree.reached node isOld).induction
      intro other node hangs reachedAbove
      exact .hangs reachedAbove (keeps other node hangs).2
    intro node isNode
    rw [size_pushAt, Nat.lt_succ_iff_lt_or_eq] at isNode
    cases isNode with
    | inl isOld => exact kept node isOld
    | inr isNew =>
        subst isNew
        exact .hangs (fun parent belongs => kept parent (inside parent belongs)) hangsHere

/-- Adding an expression to an empty slot leaves a tree. -/
theorem addAt (tree : IsTree arena) (empty : arena.child? slot = none)
    (inside : ∀ parent, slot.parent? = some parent → parent < arena.size) (expr : Expr) :
    IsTree (arena.addAt slot expr) := by
  induction expr generalizing arena slot with
  | absent => exact tree
  | reference declaration => exact tree.pushAt empty inside
  | number text => exact tree.pushAt empty inside
  | apply operator left right ihLeft ihRight =>
      have first : IsTree (arena.pushAt slot (.operator operator)) := tree.pushAt empty inside
      have within : arena.size < (arena.pushAt slot (.operator operator)).size := by simp
      have insideFirst : ∀ parent, (Slot.left arena.size).parent? = some parent →
          parent < (arena.pushAt slot (.operator operator)).size :=
        fun parent isParent => Option.some.inj isParent ▸ within
      have noChild (side : Slot) (belongs : side.parent? = some arena.size) :
          (arena.pushAt slot (.operator operator)).child? side = none :=
        child?_pushAt_eq_none inside side belongs
      have frame := frame_addAt left insideFirst (noChild _ rfl)
      apply ihRight (ihLeft first (noChild _ rfl) insideFirst)
      · rw [frame.child (.right arena.size) nofun (outside_right.mpr ⟨within, by simp⟩),
          noChild _ rfl]
      · intro parent isParent
        exact Option.some.inj isParent ▸ Nat.lt_of_lt_of_le within frame.size_le

theorem ofExpr (expr : Expr) : IsTree (ofExpr expr) :=
  empty.addAt rfl (inside_root _) expr

/-! ## Products -/

end IsTree

/-- What hangs anywhere next to a new product is the product, its factor, what the product has taken
over, or what hung there before. -/
theorem Wraps.hangs_cases (wraps : Wraps slot factor arena next)
    (inside : ∀ parent, slot.parent? = some parent → parent < arena.size)
    (hangs : next.child? other = some node) :
    (other = slot ∧ node = arena.size) ∨ (other = .left arena.size ∧ node = arena.size + 1) ∨
      (other = .right arena.size ∧ arena.child? slot = some node) ∨
      (other ≠ slot ∧ arena.child? other = some node) := by
  by_cases isSlot : other = slot
  · subst isSlot
    rw [wraps.child_self inside] at hangs
    exact .inl ⟨rfl, (Option.some.inj hangs).symm⟩
  · by_cases isNew : other.parent? = some arena.size
    · cases other with
      | root => cases isNew
      | left parent =>
          cases isNew
          rw [wraps.child_left] at hangs
          exact .inr (.inl ⟨rfl, (Option.some.inj hangs).symm⟩)
      | right parent =>
          cases isNew
          rw [wraps.child_right] at hangs
          exact .inr (.inr (.inl ⟨rfl, hangs⟩))
    · rw [wraps.child_of_ne isSlot isNew] at hangs
      exact .inr (.inr (.inr ⟨isSlot, hangs⟩))

namespace IsTree

/-- Putting a product between a slot and what hangs there leaves a tree. -/
theorem wraps (tree : IsTree arena) (wraps : Wraps slot factor arena next)
    (inside : ∀ parent, slot.parent? = some parent → parent < arena.size) : IsTree next := by
  have hangsHere := wraps.child_self inside
  have keeps (other : Slot) (node : Nat) (different : other ≠ slot)
      (hangs : arena.child? other = some node) : next.child? other = some node := by
    rw [wraps.child_of_ne different, hangs]
    intro belongs
    exact Nat.lt_irrefl _ (slot_inside hangs _ belongs)
  have size := wraps.size
  constructor
  case linked =>
    intro other node hangs
    rw [wraps.parent]
    rcases wraps.hangs_cases inside hangs with
      ⟨rfl, rfl⟩ | ⟨rfl, rfl⟩ | ⟨rfl, hung⟩ | ⟨different, hung⟩
    · exact ⟨by omega, by simp⟩
    · exact ⟨by omega, by simp⟩
    · have isOld := tree.child_lt hung
      rw [if_neg (Nat.ne_of_lt isOld), if_pos (.inr hung)]
      exact ⟨by omega, rfl⟩
    · have isOld := tree.child_lt hung
      have notMoved : ¬(node = arena.size + 1 ∨ arena.child? slot = some node) := by
        intro moved
        cases moved with
        | inl isFactor => omega
        | inr moved => exact different (tree.slot_eq hung moved)
      rw [if_neg (Nat.ne_of_lt isOld), if_neg notMoved]
      exact ⟨by omega, tree.parent_eq hung⟩
  case hung =>
    have homeOf (node : Nat) (isNode : node < next.size) : ∃ home, next.child? home = some node := by
      by_cases isOld : node < arena.size
      · obtain ⟨home, hangs, -⟩ := tree.hung node isOld
        by_cases isSlot : home = slot
        · subst isSlot
          exact ⟨.right arena.size, wraps.child_right.trans hangs⟩
        · exact ⟨home, keeps home node isSlot hangs⟩
      · by_cases isTimes : node = arena.size
        · subst isTimes
          exact ⟨slot, hangsHere⟩
        · obtain rfl : node = arena.size + 1 := by omega
          exact ⟨.left arena.size, wraps.child_left⟩
    intro node isNode
    obtain ⟨home, hangs⟩ := homeOf node isNode
    apply ExistsUnique.intro home hangs
    intro other hangsOther
    have before := wraps.hangs_cases inside hangs
    have after := wraps.hangs_cases inside hangsOther
    have onlyOld {place : Slot} (hung : arena.child? place = some node) := tree.child_lt hung
    have onlyOnce {one two : Slot} (hung : arena.child? one = some node)
        (hungToo : arena.child? two = some node) := tree.slot_eq hung hungToo
    grind
  case reached =>
    have kept (node : Nat) (isOld : node < arena.size) : next.Reached node := by
      apply (tree.reached node isOld).induction
      intro other node hangs reachedAbove
      by_cases isSlot : other = slot
      · subst isSlot
        have below : next.child? (.right arena.size) = some node := wraps.child_right.trans hangs
        exact (Reached.hangs reachedAbove hangsHere).tail (isChild_of_hangs rfl below)
      · exact .hangs reachedAbove (keeps other node isSlot hangs)
    have isReached : next.Reached arena.size :=
      .hangs (fun parent belongs => kept parent (inside parent belongs)) hangsHere
    intro node isNode
    by_cases isOld : node < arena.size
    · exact kept node isOld
    · by_cases isTimes : node = arena.size
      · subst isTimes
        exact isReached
      · obtain rfl : node = arena.size + 1 := by omega
        exact isReached.tail (isChild_of_hangs rfl wraps.child_left)

/-- A node that is multiplied by a factor stays below the slot where it hung. -/
theorem wrap (tree : IsTree arena) (inside : node < arena.size) (factor : String) :
    IsTree (arena.wrap node factor) := by
  obtain ⟨slot, hangs, unique⟩ := tree.hung node inside
  have alone : ∀ parent, slot = .right parent → arena.left? parent ≠ some node := by
    rintro parent rfl onLeft
    cases unique (.left parent) onLeft
  exact tree.wraps
    (wraps_wrap hangs inside (slot_inside hangs) (tree.parent_eq hangs) alone factor)
    (slot_inside hangs)

theorem wrapRight (tree : IsTree arena) (inside : node < arena.size) (factor : String) :
    IsTree (arena.wrapRight node factor) := by
  have insideNode : ∀ parent, (Slot.right node).parent? = some parent → parent < arena.size :=
    fun parent isParent => Option.some.inj isParent ▸ inside
  have insideChild : ∀ child, arena.right? node = some child → child < arena.size :=
    fun child onRight => (tree.linked (.right node) child onRight).1
  exact tree.wraps (wraps_wrapRight inside insideChild factor) insideNode

/-! ## Scaling -/

theorem divide (tree : IsTree arena) (inside : node < arena.size) (factor : Factor) :
    IsTree (arena.divide node factor) := by
  unfold Arena.divide
  cases assigned : arena.assignment? node with
  | none => exact tree.wrap inside factor.reciprocal
  | some assignment =>
      have linked := (Option.filter_eq_some_iff.mp assigned).1
      exact tree.wrapRight (tree.parent_lt linked) factor.text

theorem scaleRate (tree : IsTree arena) (inside : node < arena.size) (rule : FactorRule) :
    IsTree (arena.scaleRate rule node) := by
  unfold Arena.scaleRate
  cases arena.rateFactor rule node with
  | none => exact tree
  | some factor => exact tree.divide inside factor

/-- Scaling at one node leaves a tree, whatever has been scaled before. -/
theorem scaleNode (tree : IsTree arena) (rule : FactorRule) (node : Nat) :
    IsTree (arena.scaleNode rule node) := by
  unfold Arena.scaleNode
  split
  case h_1 declaration isReference =>
    have inside := lt_size_of_label? isReference
    split
    case h_1 parent linked _ => exact tree.scaleRate (tree.parent_lt linked) rule
    case h_2 => exact tree
    case h_3 =>
      cases rule declaration with
      | none => exact tree
      | some factor => exact tree.wrap inside factor.text
  case h_2 => exact tree

/-- Scaling leaves a tree. -/
theorem scale (tree : IsTree arena) (rule : FactorRule) : IsTree (arena.scale rule) := by
  unfold Arena.scale
  -- The nodes are listed before the first of them is scaled.
  generalize arena.postOrder = nodes
  induction nodes generalizing arena with
  | nil => exact tree
  | cons node nodes ih => exact ih (tree.scaleNode rule node)

end IsTree

/-! ## Nodes are only added -/

section

variable (arena) (node new : Nat) (factor : String) (rule : FactorRule)

@[simp] theorem size_replace : (arena.replace node new).size = arena.size := by
  unfold replace
  split
  · split
    · exact size_setChild arena (.left _) (some new)
    · exact size_setChild arena (.right _) (some new)
  · exact size_setChild arena .root (some new)

@[simp] theorem size_wrap : (arena.wrap node factor).size = arena.size + 2 := by
  simp [wrap, setLeft_eq_setChild, setRight_eq_setChild]

@[simp] theorem size_wrapRight : (arena.wrapRight node factor).size = arena.size + 2 := by
  simp [wrapRight, setLeft_eq_setChild, setRight_eq_setChild]

theorem size_le_scaleRate : arena.size ≤ (arena.scaleRate rule node).size := by
  unfold scaleRate divide
  split
  · split <;> simp
  · exact Nat.le_refl _

theorem size_le_scaleNode : arena.size ≤ (arena.scaleNode rule node).size := by
  unfold scaleNode
  split
  · split
    · exact size_le_scaleRate arena _ rule
    · exact Nat.le_refl _
    · split <;> simp
  · exact Nat.le_refl _

theorem size_le_scale : arena.size ≤ (arena.scale rule).size := by
  unfold scale
  generalize arena.postOrder = nodes
  induction nodes generalizing arena with
  | nil => exact Nat.le_refl _
  | cons node nodes ih => exact Nat.le_trans (size_le_scaleNode arena node rule) (ih _)

end

end ComponentModel.Equation.Arena
