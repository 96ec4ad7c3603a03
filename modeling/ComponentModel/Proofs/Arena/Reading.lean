import ComponentModel.Equation.Building
import ComponentModel.Proofs.Arena.Building

/-!
# Reading into an arena

Reading an equation into an arena node by node leaves the arena that holds the expression which is
read as a whole. The nodes of a subexpression are added before the first of them hangs in its slot,
and hanging it there does not interfere with adding the nodes below it, so the two can change
places.
-/

namespace ComponentModel.Equation

namespace Arena

variable {arena : Arena} {slot other : Slot} {child : Nat} {label : Label} {expr : Expr}

theorem ext_nodes {one two : Arena} (root : one.root = two.root)
    (nodes : ∀ node : Nat, one.nodes[node]? = two.nodes[node]?) : one = two := by
  cases one
  cases two
  simp_all [List.ext_getElem?_iff]

@[simp] theorem size_pushBelow (arena : Arena) (label : Label) (parent? : Option Nat) :
    (arena.pushBelow label parent?).size = arena.size + 1 := by
  simp [pushBelow, size]

theorem getElem?_pushBelow (arena : Arena) (label : Label) (parent? : Option Nat) (node : Nat) :
    (arena.pushBelow label parent?).nodes[node]? =
      if node = arena.size then some ⟨label, none, none, parent?⟩ else arena.nodes[node]? := by
  simp only [pushBelow, size, List.getElem?_append, List.getElem?_singleton]
  grind

/-- Nothing hangs below a new node. -/
theorem child?_pushBelow_eq_none (arena : Arena) (label : Label) (parent? : Option Nat)
    (below : Slot) (belongs : below.parent? = some arena.size) :
    (arena.pushBelow label parent?).child? below = none := by
  cases below with
  | root => cases belongs
  | left parent =>
      obtain rfl : parent = arena.size := Option.some.inj belongs
      simp [left?, getElem?_pushBelow]
  | right parent =>
      obtain rfl : parent = arena.size := Option.some.inj belongs
      simp [right?, getElem?_pushBelow]

/-- A node that was not linked before is pushed below nothing. -/
theorem push_eq_pushBelow (arena : Arena) (label : Label) :
    arena.push label = arena.pushBelow label none := rfl

/-! ## Hanging a node before or after others are added -/

theorem setChild_comm {one two : Option Nat} (arena : Arena) (different : slot ≠ other)
    (apart : ∀ node, one = some node → two ≠ some node) :
    (arena.setChild slot one).setChild other two =
      (arena.setChild other two).setChild slot one := by
  apply ext_nodes
  · simp only [root_setChild]
    grind
  · intro node
    simp only [getElem?_setChild, Option.map_map]
    congr 1
    funext found
    simp only [Function.comp_apply, Node.mk.injEq, true_and]
    grind

theorem setChild_push (label : Label) (inside : child < arena.size)
    (insideParent : ∀ parent, slot.parent? = some parent → parent < arena.size) :
    (arena.push label).setChild slot (some child) =
      (arena.setChild slot (some child)).push label := by
  apply ext_nodes
  · simp
  · intro node
    simp only [push_eq_pushBelow, getElem?_setChild, getElem?_pushBelow, size_setChild]
    by_cases isNew : node = arena.size
    · have notLeft : slot ≠ .left node := by
        rintro rfl
        exact absurd (insideParent node rfl) (by omega)
      have notRight : slot ≠ .right node := by
        rintro rfl
        exact absurd (insideParent node rfl) (by omega)
      have notChild : child ≠ node := by omega
      simp [isNew] at notLeft notRight notChild ⊢
      simp [notLeft, notRight, notChild]
    · simp [isNew]

theorem setChild_pushAt (different : slot ≠ other) (inside : child < arena.size)
    (insideParent : ∀ parent, slot.parent? = some parent → parent < arena.size) :
    (arena.pushAt other label).setChild slot (some child) =
      (arena.setChild slot (some child)).pushAt other label := by
  have apart : ∀ node, some arena.size = some node → some child ≠ some node := by
    intro node same
    simp only [Option.some.injEq, ne_eq] at same ⊢
    omega
  simp only [pushAt, size_setChild]
  rw [setChild_comm _ different.symm apart, setChild_push label inside insideParent]

/-- Hanging a node in a slot and adding an expression elsewhere can change places. -/
theorem setChild_addAt (different : slot ≠ other) (inside : child < arena.size)
    (insideParent : ∀ parent, slot.parent? = some parent → parent < arena.size) :
    (arena.addAt other expr).setChild slot (some child) =
      (arena.setChild slot (some child)).addAt other expr := by
  induction expr generalizing arena other with
  | absent => rfl
  | reference declaration => exact setChild_pushAt different inside insideParent
  | number text => exact setChild_pushAt different inside insideParent
  | apply operator left right ihLeft ihRight =>
      have notBelow (below : Slot) (belongs : below.parent? = some arena.size) : slot ≠ below :=
        (ne_of_new insideParent belongs).symm
      have grown : arena.size ≤ (arena.pushAt other (.operator operator)).size := by simp [pushAt]
      have grownLeft : arena.size ≤
          ((arena.pushAt other (.operator operator)).addAt (.left arena.size) left).size :=
        Nat.le_trans grown (by simp)
      simp only [addAt, size_setChild]
      rw [ihRight (notBelow _ rfl) (Nat.lt_of_lt_of_le inside grownLeft)
          fun parent isParent => Nat.lt_of_lt_of_le (insideParent parent isParent) grownLeft,
        ihLeft (notBelow _ rfl) (Nat.lt_of_lt_of_le inside grown)
          fun parent isParent => Nat.lt_of_lt_of_le (insideParent parent isParent) grown,
        setChild_pushAt different inside insideParent]

/-! ## Nodes of an expression that does not hang yet -/

/-- Add the nodes of an expression, the first of which only links back to a node. -/
def addBelow (arena : Arena) (parent? : Option Nat) : Expr → Arena
  | .absent => arena
  | .reference declaration => arena.pushBelow (.reference declaration) parent?
  | .number text => arena.pushBelow (.number text) parent?
  | .apply operator left right =>
      ((arena.pushBelow (.operator operator) parent?).addAt (.left arena.size) left).addAt
        (.right arena.size) right

/-- The number of the first node of an expression that is added next. -/
def nodeOf? (arena : Arena) (expr : Expr) : Option Nat :=
  if expr.isPresent then some arena.size else none

theorem setChild_pushBelow (arena : Arena) (slot : Slot) (label : Label) :
    (arena.pushBelow label slot.parent?).setChild slot (some arena.size) =
      arena.pushAt slot label := by
  apply ext_nodes
  · simp [pushAt, pushBelow]
  · intro node
    simp only [pushAt, push_eq_pushBelow, getElem?_setChild, getElem?_pushBelow]
    by_cases isNew : node = arena.size
    · simp [isNew]
    · simp [isNew]

/-- Nothing changes when nothing is hung in an empty slot. -/
theorem setChild_none (empty : arena.child? slot = none) : arena.setChild slot none = arena := by
  apply ext_nodes
  · cases slot <;> simp_all
  · intro node
    rw [getElem?_setChild]
    cases found : arena.nodes[node]? with
    | none => rfl
    | some entry =>
        have left : (if slot = .left node then none else entry.left) = entry.left := by
          rw [ite_eq_right_iff]
          rintro rfl
          simpa [left?, found] using empty.symm
        have right : (if slot = .right node then none else entry.right) = entry.right := by
          rw [ite_eq_right_iff]
          rintro rfl
          simpa [right?, found] using empty.symm
        simp [left, right]

/-- An expression that has been added is hung in a slot when it is complete. -/
theorem setChild_addBelow (empty : arena.child? slot = none)
    (inside : ∀ parent, slot.parent? = some parent → parent < arena.size) (expr : Expr) :
    (arena.addBelow slot.parent? expr).setChild slot (arena.nodeOf? expr) =
      arena.addAt slot expr := by
  cases expr with
  | absent => exact setChild_none empty
  | reference declaration => exact setChild_pushBelow ..
  | number text => exact setChild_pushBelow ..
  | apply operator left right =>
      have different (below : Slot) (belongs : below.parent? = some arena.size) : slot ≠ below :=
        (ne_of_new inside belongs).symm
      have within : arena.size < (arena.pushBelow (.operator operator) slot.parent?).size := by simp
      have withinLeft : arena.size < ((arena.pushBelow (.operator operator) slot.parent?).addAt
          (.left arena.size) left).size := by
        rw [size_addAt]
        exact Nat.lt_add_right _ within
      have isNode : arena.nodeOf? (.apply operator left right) = some arena.size := rfl
      simp only [addBelow, addAt, isNode]
      rw [setChild_addAt (different _ rfl) withinLeft
          fun parent isParent => Nat.lt_trans (inside parent isParent) withinLeft,
        setChild_addAt (different _ rfl) within
          fun parent isParent => Nat.lt_trans (inside parent isParent) within,
        setChild_pushBelow]

end Arena

/-! ## Drafts -/

variable {declaration? : String → Option Nat} {draft : Draft} {parent? : Option Nat} {slot : Slot}
  {first second : Read}

/-- The draft after what has been read of an element: its nodes are added and its variables are
mentioned, but it does not hang yet. -/
def Drafted.of (parent? : Option Nat) (draft : Draft) (read : Read) : Drafted :=
  ⟨draft.arena.nodeOf? read.1, draft.arena.addBelow parent? read.1, draft.mentions ++ read.2⟩

theorem Draft.absent_eq_of : draft.absent = .of parent? draft .absent := by
  simp [absent, Drafted.of, Read.absent, Arena.addBelow, Arena.nodeOf?, Expr.isPresent]

theorem Draft.name_eq_of (role : Role) (written : String) :
    draft.name declaration? role parent? written =
      .of parent? draft (.name declaration? role written) := by
  unfold Draft.name Read.name
  cases declaration? written with
  | none => rfl
  | some declaration => rfl

theorem Draft.leaf_number_eq_of (written : String) :
    draft.leaf (.number written) parent? = .of parent? draft (.number written, []) := by
  simp [leaf, add, next, Drafted.of, Arena.nodeOf?, Arena.addBelow, Expr.isPresent]

theorem Draft.leaf_operator_eq_of (operator : Operator) :
    draft.leaf (.operator operator) parent? = .of parent? draft (.leaf operator, []) := by
  simp [leaf, add, next, Drafted.of, Expr.leaf, Arena.nodeOf?, Arena.addBelow, Arena.addAt,
    Expr.isPresent]

/-- An element is read by its name in both ways. -/
theorem Drafted.of_ite {condition : Prop} [Decidable condition] {one two : Drafted}
    (isFirst : one = .of parent? draft first) (isSecond : two = .of parent? draft second) :
    (if condition then one else two) =
      .of parent? draft (if condition then first else second) := by
  split
  case isTrue => exact isFirst
  case isFalse => exact isSecond

/-- What has been read hangs in its slot as if it had been added there. -/
theorem Drafted.hang_of {node : Nat} (belongs : slot.parent? = some node)
    (inside : node < draft.arena.size) (empty : draft.arena.child? slot = none) (read : Read) :
    (Drafted.of (some node) draft read).hang slot =
      ⟨draft.arena.addAt slot read.1, draft.mentions ++ read.2⟩ := by
  have hangs := Arena.setChild_addBelow empty
    (fun parent isParent => Option.some.inj (belongs.symm.trans isParent) ▸ inside) read.1
  rw [belongs] at hangs
  simp [hang, of, hangs]

/-- The first child of an operator has been read and hung below it. -/
def Draft.withLeft (draft : Draft) (operator : Operator) (parent? : Option Nat) (first : Read) :
    Draft :=
  (Drafted.of (some draft.next) (draft.add (.operator operator) parent?) first).hang
    (.left draft.next)

theorem Draft.withLeft_eq (draft : Draft) (operator : Operator) (parent? : Option Nat)
    (first : Read) : draft.withLeft operator parent? first =
      ⟨(draft.arena.pushBelow (.operator operator) parent?).addAt (.left draft.next) first.1,
        draft.mentions ++ first.2⟩ :=
  Drafted.hang_of rfl (by simp [add, next]) (Arena.child?_pushBelow_eq_none _ _ _ _ rfl) first

theorem Draft.right_withLeft (draft : Draft) (operator : Operator) (parent? : Option Nat)
    (first : Read) :
    draft.next < (draft.withLeft operator parent? first).arena.size ∧
      (draft.withLeft operator parent? first).arena.child? (.right draft.next) = none := by
  have within : draft.next < (draft.arena.pushBelow (.operator operator) parent?).size := by
    simp [next]
  have empty (side : Slot) (belongs : side.parent? = some draft.next) :
      (draft.arena.pushBelow (.operator operator) parent?).child? side = none :=
    Arena.child?_pushBelow_eq_none _ _ _ _ belongs
  have frame : Arena.Frame (.left draft.next) [] _ _ := Arena.frame_addAt first.1
    (fun parent isParent => Option.some.inj isParent ▸ within) (empty _ rfl)
  rw [withLeft_eq]
  constructor
  · exact Nat.lt_of_lt_of_le within frame.size_le
  · rw [frame.child (.right draft.next) nofun (Arena.outside_right.mpr ⟨within, by simp⟩),
      empty _ rfl]

/-- An operator is read when its children have been read and hung below it. -/
theorem Drafted.of_apply (operator : Operator) (first second : Read) :
    Drafted.of parent? draft (.apply operator first second) =
      ⟨some draft.next,
        (Drafted.of (some draft.next) (draft.withLeft operator parent? first) second).hang
          (.right draft.next)⟩ := by
  obtain ⟨inside, empty⟩ := draft.right_withLeft operator parent? first
  rw [hang_of rfl inside empty, Draft.withLeft_eq]
  simp only [of, Read.apply, Arena.addBelow, Draft.next, List.append_assoc]
  rfl

/-- Without a second child, the slot on the right is left alone. -/
theorem Drafted.of_apply_absent (operator : Operator) (first : Read) :
    Drafted.of parent? draft (.apply operator first .absent) =
      ⟨some draft.next, draft.withLeft operator parent? first⟩ := by
  obtain ⟨inside, empty⟩ := draft.right_withLeft operator parent? first
  rw [of_apply, hang_of rfl inside empty]
  simp [Read.absent, Arena.addAt]

theorem draftArguments_nested (operator : Operator) (role : Role) (parent? : Option Nat)
    (draft : Draft) (one two three : Markup.Element) (rest : List Markup.Element) :
    draftArguments declaration? operator role parent? draft (one :: two :: three :: rest) =
      ⟨some draft.next,
        (draftArguments declaration? operator role (some draft.next)
          ((draftElement declaration? false role (some draft.next)
            (draft.add (.operator operator) parent?) one).hang (.left draft.next))
          (two :: three :: rest)).hang (.right draft.next)⟩ := by
  rw [draftArguments] <;> nofun

theorem readArguments_nested (operator : Operator) (role : Role) (one two three : Markup.Element)
    (rest : List Markup.Element) :
    readArguments declaration? operator role (one :: two :: three :: rest) =
      .apply operator (readElement declaration? false role one)
        (readArguments declaration? operator role (two :: three :: rest)) := by
  rw [readArguments] <;> nofun

mutual

theorem draftElement_eq (outermost : Bool) (role : Role) (parent? : Option Nat) (draft : Draft)
    (element : Markup.Element) : draftElement declaration? outermost role parent? draft element =
      .of parent? draft (readElement declaration? outermost role element) := by
  cases element with
  | mk name attributes children text =>
    unfold draftElement readElement
    apply Drafted.of_ite
    · cases children with
      | nil => exact Draft.absent_eq_of
      | cons head arguments =>
        cases found : Operator.ofElement? head.name with
        | none =>
          simp only [found]
          exact Draft.absent_eq_of
        | some operator =>
          simp only [found]
          exact draftArguments_eq _ _ parent? draft arguments
    apply Drafted.of_ite
    · exact draftArguments_eq _ _ parent? draft children
    apply Drafted.of_ite
    · exact draftPair_eq _ _ parent? draft children
    apply Drafted.of_ite
    · exact draftPair_eq _ _ parent? draft children
    apply Drafted.of_ite
    · exact draftFirst_eq _ parent? draft children
    apply Drafted.of_ite
    · exact draftFirst_eq _ parent? draft children
    apply Drafted.of_ite
    · exact draftFirst_eq _ parent? draft children
    apply Drafted.of_ite
    · exact Draft.name_eq_of role _
    apply Drafted.of_ite
    · exact Draft.leaf_number_eq_of _
    · cases Operator.ofElement? name with
      | none => exact Draft.absent_eq_of
      | some operator =>
        dsimp only
        cases operator.isConstant with
        | true => exact Draft.leaf_operator_eq_of operator
        | false => exact Draft.absent_eq_of

theorem draftArguments_eq (operator : Operator) (role : Role) (parent? : Option Nat)
    (draft : Draft) (arguments : List Markup.Element) :
    draftArguments declaration? operator role parent? draft arguments =
      .of parent? draft (readArguments declaration? operator role arguments) := by
  match arguments with
  | [] =>
      rw [draftArguments, Draft.absent_eq_of, readArguments, Drafted.of_apply_absent]
      rfl
  | [only] =>
      rw [draftArguments, draftElement_eq, readArguments, Drafted.of_apply_absent]
      rfl
  | [one, two] =>
      rw [draftArguments, draftElement_eq, draftElement_eq, readArguments, Drafted.of_apply]
      rfl
  | one :: two :: three :: rest =>
      rw [draftArguments_nested, draftElement_eq, draftArguments_eq, readArguments_nested,
        Drafted.of_apply]
      rfl

theorem draftPair_eq (operator : Operator) (role : Role) (parent? : Option Nat)
    (draft : Draft) (children : List Markup.Element) :
    draftPair declaration? operator role parent? draft children =
      .of parent? draft (readPair declaration? operator role children) := by
  match children with
  | [] =>
      rw [draftPair, Draft.absent_eq_of, Draft.absent_eq_of, readPair, Drafted.of_apply]
      rfl
  | [only] =>
      rw [draftPair, draftElement_eq, Draft.absent_eq_of, readPair, Drafted.of_apply]
      rfl
  | one :: two :: _ =>
      rw [draftPair, draftElement_eq, draftElement_eq, readPair, Drafted.of_apply]
      rfl

theorem draftFirst_eq (operator : Operator) (parent? : Option Nat)
    (draft : Draft) (children : List Markup.Element) :
    draftFirst declaration? operator parent? draft children =
      .of parent? draft (readFirst declaration? operator children) := by
  match children with
  | [] =>
      rw [draftFirst, Draft.absent_eq_of, readFirst, Drafted.of_apply_absent]
      rfl
  | one :: _ =>
      rw [draftFirst, draftElement_eq, readFirst, Drafted.of_apply_absent]
      rfl

end

/-- Reading an equation node by node leaves the arena of the expression that is read. -/
theorem draftEquation_eq (declaration? : String → Option Nat) (element : Markup.Element) :
    draftEquation declaration? element =
      (if (readEquation declaration? element).1.isPresent then
        some (.ofExpr (readEquation declaration? element).1) else none,
        (readEquation declaration? element).2) := by
  unfold draftEquation
  rw [draftElement_eq, ← readEquation]
  generalize readEquation declaration? element = read
  have hangs : (Arena.addBelow ⟨[], none⟩ none read.1).setChild .root
      (Arena.nodeOf? ⟨[], none⟩ read.1) = .ofExpr read.1 :=
    Arena.setChild_addBelow rfl (Arena.inside_root _) read.1
  cases isPresent : read.1.isPresent with
  | false => simp [Drafted.of, Draft.empty, Arena.nodeOf?, isPresent]
  | true =>
      simp only [Arena.nodeOf?, isPresent, if_true] at hangs
      simp [Drafted.of, Draft.empty, Arena.nodeOf?, isPresent, ← hangs]
      rfl

theorem draftEquation_eq_some_iff {element : Markup.Element} {arena : Arena} :
    (draftEquation declaration? element).1 = some arena ↔
      (readEquation declaration? element).1.isPresent = true ∧
        arena = .ofExpr (readEquation declaration? element).1 := by
  rw [draftEquation_eq]
  cases (readEquation declaration? element).1.isPresent <;> simp [eq_comm]

end ComponentModel.Equation
