import ComponentModel.Equation.Arena

/-!
# Links of an arena

A node hangs in a slot: at the root, or to the left or to the right of another node. All changes of
links come down to hanging a node in a slot, which sets one link down and one link up and keeps all
others. Multiplying by a factor puts a product between a slot and what hangs there.
-/

namespace ComponentModel.Equation

namespace Slot

@[simp] theorem parent?_root : root.parent? = none := rfl

@[simp] theorem parent?_left (parent : Nat) : (left parent).parent? = some parent := rfl

@[simp] theorem parent?_right (parent : Nat) : (right parent).parent? = some parent := rfl

end Slot

namespace Arena

@[simp] theorem child?_root (arena : Arena) : arena.child? .root = arena.root := rfl

@[simp] theorem child?_left (arena : Arena) (parent : Nat) :
    arena.child? (.left parent) = arena.left? parent := rfl

@[simp] theorem child?_right (arena : Arena) (parent : Nat) :
    arena.child? (.right parent) = arena.right? parent := rfl

variable {arena next : Arena} {slot other : Slot} {node : Nat}

theorem lt_size_of_label? {label : Label} (found : arena.label? node = some label) :
    node < arena.size := by
  obtain ⟨_, found, -⟩ := Option.map_eq_some_iff.mp found
  exact (List.getElem?_eq_some_iff.mp found).1

theorem child?_eq_none (belongs : slot.parent? = some node) (outside : arena.size ≤ node) :
    arena.child? slot = none := by
  cases slot with
  | root => cases belongs
  | left parent =>
      obtain rfl : parent = node := Option.some.inj belongs
      simp [left?, List.getElem?_eq_none outside]
  | right parent =>
      obtain rfl : parent = node := Option.some.inj belongs
      simp [right?, List.getElem?_eq_none outside]

/-! ## New nodes -/

section

variable (arena) (label : Label)

@[simp] theorem size_push : (arena.push label).size = arena.size + 1 := by
  simp [push, size]

@[simp] theorem root_push : (arena.push label).root = arena.root := rfl

@[simp] theorem label?_push (node : Nat) : (arena.push label).label? node =
    if node = arena.size then some label else arena.label? node := by
  simp only [push, label?, size, List.getElem?_append, List.getElem?_singleton]
  grind

/-- A new node is not linked to any other. -/
theorem bind_push {link : Node → Option Nat} (unlinked : link ⟨label, none, none, none⟩ = none)
    (node : Nat) :
    (arena.push label).nodes[node]?.bind link = arena.nodes[node]?.bind link := by
  simp only [push, List.getElem?_append, List.getElem?_singleton]
  grind

@[simp] theorem left?_push (node : Nat) : (arena.push label).left? node = arena.left? node :=
  bind_push arena label rfl node

@[simp] theorem right?_push (node : Nat) :
    (arena.push label).right? node = arena.right? node :=
  bind_push arena label rfl node

@[simp] theorem parent?_push (node : Nat) :
    (arena.push label).parent? node = arena.parent? node :=
  bind_push arena label rfl node

end

/-! ## Hanging a node in a slot -/

section

variable (arena) (child? parent? : Option Nat) (node : Nat) (update : Node → Node)

@[simp] theorem size_change : (arena.change node update).size = arena.size := by
  simp [change, size]

@[simp] theorem root_change : (arena.change node update).root = arena.root := rfl

@[simp] theorem size_setParent : (arena.setParent child? parent?).size = arena.size := by
  cases child? <;> simp [setParent]

@[simp] theorem root_setParent : (arena.setParent child? parent?).root = arena.root := by
  cases child? <;> simp [setParent]

end

theorem getElem?_setParent (child? parent? : Option Nat) :
    (arena.setParent child? parent?).nodes[node]? =
      arena.nodes[node]?.map fun found =>
        { found with parent := if child? = some node then parent? else found.parent } := by
  cases child? with
  | none => simp [setParent]
  | some child =>
      simp only [setParent, change, List.getElem?_modify, Option.map_eq_map, Option.some.injEq]
      congr 1
      funext found
      split <;> rfl

theorem getElem?_setChild (slot : Slot) (child? : Option Nat) :
    (arena.setChild slot child?).nodes[node]? =
      arena.nodes[node]?.map fun found =>
        { label := found.label
          left := if slot = .left node then child? else found.left
          right := if slot = .right node then child? else found.right
          parent := if child? = some node then slot.parent? else found.parent } := by
  cases slot with
  | root =>
    simp [setChild, setRoot, getElem?_setParent]
  | left parent =>
    simp [setChild, setLeft, getElem?_setParent, change, List.getElem?_modify]
    grind
  | right parent =>
    simp [setChild, setRight, getElem?_setParent, change, List.getElem?_modify]
    grind

section

variable (arena) (slot : Slot) (child : Option Nat)

@[simp] theorem size_setChild : (arena.setChild slot child).size = arena.size := by
  cases slot with
  | root => exact size_setParent ..
  | left parent => simp [setChild, setLeft]
  | right parent => simp [setChild, setRight]

@[simp] theorem root_setChild : (arena.setChild slot child).root =
    if slot = .root then child else arena.root := by
  cases slot <;> simp [setChild, setRoot, setLeft, setRight]

@[simp] theorem label?_setChild (node : Nat) :
    (arena.setChild slot child).label? node = arena.label? node := by
  simp [label?, getElem?_setChild, Function.comp_def]

theorem left?_setChild (node : Nat) : (arena.setChild slot child).left? node =
    if slot = .left node ∧ node < arena.size then child else arena.left? node := by
  simp [left?, getElem?_setChild, size]
  grind

theorem right?_setChild (node : Nat) : (arena.setChild slot child).right? node =
    if slot = .right node ∧ node < arena.size then child else arena.right? node := by
  simp [right?, getElem?_setChild, size]
  grind

theorem parent?_setChild (node : Nat) : (arena.setChild slot child).parent? node =
    if child = some node ∧ node < arena.size then slot.parent? else arena.parent? node := by
  simp [parent?, getElem?_setChild, size]
  grind

end

theorem setLeft_eq_setChild (child : Option Nat) :
    arena.setLeft node child = arena.setChild (.left node) child := rfl

theorem setRight_eq_setChild (child : Option Nat) :
    arena.setRight node child = arena.setChild (.right node) child := rfl

/-- A node is replaced in the slot where it hangs: its parent has it on the left only if that is
the slot. -/
theorem replace_eq_setChild {new : Nat} (hangs : arena.child? slot = some node)
    (linked : arena.parent? node = slot.parent?)
    (alone : ∀ parent, slot = .right parent → arena.left? parent ≠ some node) :
    arena.replace node new = arena.setChild slot (some new) := by
  unfold replace
  rw [linked]
  cases slot with
  | root => rfl
  | left parent =>
      have onLeft : arena.left? parent = some node := hangs
      simp [onLeft, setChild]
  | right parent =>
      have notLeft := alone parent rfl
      simp [notLeft, setChild]

/-! ## Products -/

/-- A product with a factor stands between a slot and what hung there before. -/
structure Wraps (slot : Slot) (factor : String) (arena next : Arena) : Prop where
  size : next.size = arena.size + 2
  label : ∀ node, next.label? node =
    if node = arena.size then some (.operator .times)
    else if node = arena.size + 1 then some (.number factor)
    else arena.label? node
  left : ∀ node, next.left? node =
    if node = arena.size then some (arena.size + 1)
    else if slot = .left node then some arena.size
    else arena.left? node
  right : ∀ node, next.right? node =
    if node = arena.size then arena.child? slot
    else if slot = .right node then some arena.size
    else arena.right? node
  parent : ∀ node, next.parent? node =
    if node = arena.size then slot.parent?
    else if node = arena.size + 1 ∨ arena.child? slot = some node then some arena.size
    else arena.parent? node
  root : next.root = if slot = .root then some arena.size else arena.root

namespace Wraps

variable {factor : String}

/-- The product hangs in the slot. -/
theorem child_self (wraps : Wraps slot factor arena next)
    (inside : ∀ parent, slot.parent? = some parent → parent < arena.size) :
    next.child? slot = some arena.size := by
  cases slot with
  | root => simp [wraps.root]
  | left parent =>
      have bound := inside parent rfl
      rw [child?_left, wraps.left, if_neg (by omega), if_pos rfl]
  | right parent =>
      have bound := inside parent rfl
      rw [child?_right, wraps.right, if_neg (by omega), if_pos rfl]

/-- Other slots keep what hangs in them. -/
theorem child_of_ne (wraps : Wraps slot factor arena next) (different : other ≠ slot)
    (outside : other.parent? ≠ some arena.size) : next.child? other = arena.child? other := by
  cases other with
  | root => simp [wraps.root, Ne.symm different]
  | left parent =>
      rw [child?_left, wraps.left, if_neg (by simpa using outside), if_neg (Ne.symm different),
        child?_left]
  | right parent =>
      rw [child?_right, wraps.right, if_neg (by simpa using outside), if_neg (Ne.symm different),
        child?_right]

/-- The factor is on the left of the product. -/
theorem child_left (wraps : Wraps slot factor arena next) :
    next.child? (.left arena.size) = some (arena.size + 1) := by
  rw [child?_left, wraps.left, if_pos rfl]

/-- What hung in the slot is on the right of the product. -/
theorem child_right (wraps : Wraps slot factor arena next) :
    next.child? (.right arena.size) = arena.child? slot := by
  rw [child?_right, wraps.right, if_pos rfl]

end Wraps

theorem wraps_wrap (hangs : arena.child? slot = some node) (inside : node < arena.size)
    (insideParent : ∀ parent, slot.parent? = some parent → parent < arena.size)
    (linked : arena.parent? node = slot.parent?)
    (alone : ∀ parent, slot = .right parent → arena.left? parent ≠ some node) (factor : String) :
    Wraps slot factor arena (arena.wrap node factor) := by
  have replaced : ((arena.push (.operator .times)).push (.number factor)).replace node arena.size =
      ((arena.push (.operator .times)).push (.number factor)).setChild slot (some arena.size) := by
    refine replace_eq_setChild ?_ (by simpa using linked) (by simpa using alone)
    cases slot <;> simpa using hangs
  have insideSlot : ∀ parent, slot = .left parent ∨ slot = .right parent → parent < arena.size := by
    rintro parent (rfl | rfl) <;> exact insideParent parent rfl
  unfold wrap
  simp only [replaced, setLeft_eq_setChild, setRight_eq_setChild]
  constructor
  case size => simp
  case label =>
    intro node
    simp
    grind
  case left =>
    intro node
    simp [left?_setChild]
    grind
  case right =>
    intro node
    simp [right?_setChild, hangs]
    grind
  case parent =>
    intro node
    simp [parent?_setChild, hangs]
    grind
  case root => simp

theorem wraps_wrapRight (inside : node < arena.size)
    (insideChild : ∀ child, arena.right? node = some child → child < arena.size)
    (factor : String) : Wraps (.right node) factor arena (arena.wrapRight node factor) := by
  unfold wrapRight
  simp only [setLeft_eq_setChild, setRight_eq_setChild]
  constructor
  case size => simp
  case label =>
    intro node
    simp
    grind
  case left =>
    intro node
    simp [left?_setChild]
    grind
  case right =>
    intro node
    simp [right?_setChild]
    grind
  case parent =>
    intro node
    simp [parent?_setChild]
    grind
  case root => simp

end Arena

end ComponentModel.Equation
