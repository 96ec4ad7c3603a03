import ComponentModel.Proofs.Arena.Links
import Mathlib.Data.List.Nodup

/-!
# Expressions held by an arena

An arena holds an expression in a slot if the nodes below the slot carry its operators and leaves
and each of them links back to the one above. Rewriting below a slot keeps everything else: what
other slots hold stays there, as long as no node belongs to two expressions.
-/

namespace ComponentModel.Equation.Arena

/-- An arena holds an expression in a slot, in nodes that are listed children before their
parent. -/
inductive Holds (arena : Arena) : Slot → Expr → List Nat → Prop
  | absent {slot : Slot} (empty : arena.child? slot = none) : Holds arena slot .absent []
  | reference {slot : Slot} {node declaration : Nat} (hangs : arena.child? slot = some node)
      (linked : arena.parent? node = slot.parent?)
      (label : arena.label? node = some (.reference declaration))
      (left : arena.left? node = none) (right : arena.right? node = none) :
      Holds arena slot (.reference declaration) [node]
  | number {slot : Slot} {node : Nat} {text : String} (hangs : arena.child? slot = some node)
      (linked : arena.parent? node = slot.parent?)
      (label : arena.label? node = some (.number text))
      (left : arena.left? node = none) (right : arena.right? node = none) :
      Holds arena slot (.number text) [node]
  | apply {slot : Slot} {node : Nat} {operator : Operator} {left right : Expr}
      {leftNodes rightNodes : List Nat} (hangs : arena.child? slot = some node)
      (linked : arena.parent? node = slot.parent?)
      (label : arena.label? node = some (.operator operator))
      (onLeft : Holds arena (.left node) left leftNodes)
      (onRight : Holds arena (.right node) right rightNodes) :
      Holds arena slot (.apply operator left right) (leftNodes ++ rightNodes ++ [node])

/-- A slot belongs to a node that is there and not among some others, or is the root. -/
def Outside (arena : Arena) (nodes : List Nat) (slot : Slot) : Prop :=
  ∀ parent, slot.parent? = some parent → parent < arena.size ∧ parent ∉ nodes

@[simp] theorem outside_root (arena : Arena) (nodes : List Nat) : arena.Outside nodes .root :=
  nofun

@[simp] theorem outside_left {arena : Arena} {nodes : List Nat} {node : Nat} :
    arena.Outside nodes (.left node) ↔ node < arena.size ∧ node ∉ nodes := by
  simp [Outside]

@[simp] theorem outside_right {arena : Arena} {nodes : List Nat} {node : Nat} :
    arena.Outside nodes (.right node) ↔ node < arena.size ∧ node ∉ nodes := by
  simp [Outside]

/-- Below a slot, only some nodes have changed. Labels never change. -/
structure Frame (slot : Slot) (nodes : List Nat) (arena next : Arena) : Prop where
  size_le : arena.size ≤ next.size
  label : ∀ node < arena.size, next.label? node = arena.label? node
  parent : ∀ node < arena.size, node ∉ nodes → next.parent? node = arena.parent? node
  child : ∀ other, other ≠ slot → arena.Outside nodes other →
    next.child? other = arena.child? other

variable {arena next final : Arena} {slot other : Slot} {node : Nat} {expr : Expr}
  {nodes held : List Nat}

namespace Holds

theorem lt_size (holds : Holds arena slot expr nodes) : ∀ node ∈ nodes, node < arena.size := by
  induction holds with
  | absent => simp
  | reference _ _ label => simpa using lt_size_of_label? label
  | number _ _ label => simpa using lt_size_of_label? label
  | apply _ _ label _ _ ihLeft ihRight =>
      have inside := lt_size_of_label? label
      grind

theorem lt_size_append {left right : Expr} {leftNodes rightNodes : List Nat}
    (onLeft : Holds arena slot left leftNodes) (onRight : Holds arena other right rightNodes) :
    ∀ node ∈ leftNodes ++ rightNodes, node < arena.size := fun node membership =>
  (List.mem_append.mp membership).elim (onLeft.lt_size node) (onRight.lt_size node)

/-- The node that hangs in a slot is one of the nodes of the expression. -/
theorem child_mem (holds : Holds arena slot expr nodes) (hangs : arena.child? slot = some node) :
    node ∈ nodes := by
  cases holds <;> simp_all

theorem linked (holds : Holds arena slot expr nodes) (hangs : arena.child? slot = some node) :
    arena.parent? node = slot.parent? := by
  cases holds <;> simp_all

/-- What hangs in a slot may hang in another one afterwards, as long as the nodes keep what is below
them and, except for the first, what they link back to. -/
theorem move (holds : Holds arena slot expr nodes) (nodup : nodes.Nodup)
    (hangs : next.child? other = arena.child? slot)
    (moved : ∀ node, arena.child? slot = some node → next.parent? node = other.parent?)
    (label : ∀ node ∈ nodes, next.label? node = arena.label? node)
    (left : ∀ node ∈ nodes, next.left? node = arena.left? node)
    (right : ∀ node ∈ nodes, next.right? node = arena.right? node)
    (parent : ∀ node ∈ nodes, arena.child? slot ≠ some node →
      next.parent? node = arena.parent? node) : Holds next other expr nodes := by
  induction holds generalizing other with
  | absent empty => exact .absent (hangs.trans empty)
  | @reference slot node _ hangsHere _ isReference noLeft noRight =>
      have membership : node ∈ [node] := List.mem_singleton_self node
      exact .reference (hangs.trans hangsHere) (moved node hangsHere)
        ((label node membership).trans isReference) ((left node membership).trans noLeft)
        ((right node membership).trans noRight)
  | @number slot node _ hangsHere _ isNumber noLeft noRight =>
      have membership : node ∈ [node] := List.mem_singleton_self node
      exact .number (hangs.trans hangsHere) (moved node hangsHere)
        ((label node membership).trans isNumber) ((left node membership).trans noLeft)
        ((right node membership).trans noRight)
  | @apply slot node _ _ _ leftNodes rightNodes hangsHere _ isOperator onLeft onRight ihLeft
      ihRight =>
      have membership : node ∈ leftNodes ++ rightNodes ++ [node] := by simp
      -- The nodes below the first one keep their parents.
      have below : ∀ child ∈ leftNodes ++ rightNodes, next.parent? child = arena.parent? child := by
        intro child isBelow
        refine parent child (by grind) ?_
        rw [hangsHere]
        grind
      refine .apply (hangs.trans hangsHere) (moved node hangsHere)
        ((label node membership).trans isOperator) ?_ ?_
      · refine ihLeft (by grind) (left node membership) ?_ (by grind) (by grind) (by grind)
          (fun child isBelow _ => below child (by grind))
        intro child isChild
        exact (below child (by grind [onLeft.child_mem isChild])).trans (onLeft.linked isChild)
      · refine ihRight (by grind) (right node membership) ?_ (by grind) (by grind) (by grind)
          (fun child isBelow _ => below child (by grind))
        intro child isChild
        exact (below child (by grind [onRight.child_mem isChild])).trans (onRight.linked isChild)

/-- What is held in a slot is not changed below another one. -/
theorem of_frame (holds : Holds arena other expr held) (nodup : held.Nodup)
    (frame : Frame slot nodes arena next)
    (different : other ≠ slot) (apart : ∀ node ∈ held, node ∉ nodes)
    (outside : arena.Outside nodes other)
    (elsewhere : ∀ parent, slot.parent? = some parent → parent ∉ held) :
    Holds next other expr held := by
  have parent : ∀ node ∈ held, next.parent? node = arena.parent? node :=
    fun node membership =>
      frame.parent node (holds.lt_size node membership) (apart node membership)
  have below : ∀ node ∈ held, ∀ below : Slot, below.parent? = some node →
      next.child? below = arena.child? below := by
    intro node membership below belongs
    refine frame.child below ?_ fun parent isParent => ?_
    · rintro rfl
      exact elsewhere node belongs membership
    · obtain rfl := Option.some.inj (belongs.symm.trans isParent)
      exact ⟨holds.lt_size node membership, apart node membership⟩
  refine holds.move nodup (frame.child other different outside) ?_ ?_ ?_ ?_ ?_
  · intro node hangs
    exact (parent node (holds.child_mem hangs)).trans (holds.linked hangs)
  · exact fun node membership => frame.label node (holds.lt_size node membership)
  · exact fun node membership => below node membership (.left node) rfl
  · exact fun node membership => below node membership (.right node) rfl
  · exact fun node membership _ => parent node membership

end Holds

theorem Outside.of_frame (outside : arena.Outside held other) (frame : Frame slot nodes arena next) :
    next.Outside held other :=
  fun parent isParent => ⟨Nat.lt_of_lt_of_le (outside parent isParent).1 frame.size_le,
    (outside parent isParent).2⟩

namespace Frame

theorem refl (slot : Slot) (nodes : List Nat) (arena : Arena) : Frame slot nodes arena arena :=
  ⟨Nat.le_refl _, fun _ _ => rfl, fun _ _ _ => rfl, fun _ _ _ => rfl⟩

/-- The second change may reach nodes that the first one has added. -/
theorem trans (first : Frame slot nodes arena next) (second : Frame slot held next final)
    (within : ∀ node ∈ held, node ∈ nodes ∨ arena.size ≤ node) : Frame slot nodes arena final where
  size_le := Nat.le_trans first.size_le second.size_le
  label node inside :=
    (second.label node (Nat.lt_of_lt_of_le inside first.size_le)).trans (first.label node inside)
  parent node inside free :=
    (second.parent node (Nat.lt_of_lt_of_le inside first.size_le) (by grind)).trans
      (first.parent node inside free)
  child other different outside := by
    refine (second.child other different fun parent isParent => ?_).trans
      (first.child other different outside)
    obtain ⟨inside, free⟩ := outside parent isParent
    exact ⟨Nat.lt_of_lt_of_le inside first.size_le, by grind⟩

/-- What changes below a node changes below every slot that the node is below. -/
theorem widen (frame : Frame other held arena next) (parent : other.parent? = some node)
    (membership : node ∈ nodes) (within : held ⊆ nodes) : Frame slot nodes arena next where
  size_le := frame.size_le
  label := frame.label
  parent node inside free := frame.parent node inside fun below => free (within below)
  child below _ outside := by
    refine frame.child below ?_ fun parent isParent => ?_
    · rintro rfl
      exact (outside node parent).2 membership
    · obtain ⟨inside, free⟩ := outside parent isParent
      exact ⟨inside, fun below => free (within below)⟩

end Frame

/-! ## Rewriting below a slot -/

/-- Rewriting below a slot has led to another expression in it, in nodes that were there before or
are new. -/
structure Rewrites (slot : Slot) (nodes : List Nat) (arena next : Arena) (expr : Expr)
    (held : List Nat) : Prop where
  holds : Holds next slot expr held
  nodup : held.Nodup
  within : ∀ node ∈ held, node ∈ nodes ∨ arena.size ≤ node
  frame : Frame slot nodes arena next

namespace Rewrites

theorem refl (holds : Holds arena slot expr nodes) (nodup : nodes.Nodup) :
    Rewrites slot nodes arena arena expr nodes :=
  ⟨holds, nodup, fun _ membership => Or.inl membership, .refl slot nodes arena⟩

theorem trans {replaced : Expr} {reached : List Nat}
    (first : Rewrites slot nodes arena next expr held)
    (second : Rewrites slot held next final replaced reached) :
    Rewrites slot nodes arena final replaced reached where
  holds := second.holds
  nodup := second.nodup
  within node membership := by
    rcases second.within node membership with before | new
    · exact first.within node before
    · exact Or.inr (Nat.le_trans first.frame.size_le new)
  frame := first.frame.trans second.frame first.within

end Rewrites

/-- The slot of an expression belongs to none of its nodes, and neither does the sibling. -/
structure Clear (arena : Arena) (slot : Slot) (nodes : List Nat) : Prop where
  outside : arena.Outside nodes slot
  alone : ∀ parent sibling, slot = .right parent → arena.left? parent = some sibling →
    sibling < arena.size ∧ sibling ∉ nodes

theorem Clear.of_rewrites (clear : Clear arena slot nodes)
    (rewrites : Rewrites slot nodes arena next expr held) : Clear next slot held where
  outside parent isParent := by
    obtain ⟨inside, free⟩ := clear.outside parent isParent
    refine ⟨Nat.lt_of_lt_of_le inside rewrites.frame.size_le, fun membership => ?_⟩
    rcases rewrites.within parent membership with before | new
    · exact free before
    · omega
  alone parent sibling isRight onLeft := by
    have outside : arena.Outside nodes (.left parent) :=
      outside_left.mpr (clear.outside parent (by rw [isRight]; rfl))
    rw [← child?_left, rewrites.frame.child _ (by rw [isRight]; nofun) outside, child?_left]
      at onLeft
    obtain ⟨inside, free⟩ := clear.alone parent sibling isRight onLeft
    refine ⟨Nat.lt_of_lt_of_le inside rewrites.frame.size_le, fun membership => ?_⟩
    rcases rewrites.within sibling membership with before | new
    · exact free before
    · omega

/-! ## Both children of a node -/

section

variable {operator : Operator} {left right : Expr} {leftNodes rightNodes leftHeld rightHeld : List Nat}

/-- While the left child of a node is rewritten, the right one stays where it is. -/
theorem Rewrites.right_of_left (inside : node < arena.size)
    (onRight : Holds arena (.right node) right rightNodes)
    (nodup : (leftNodes ++ rightNodes ++ [node]).Nodup)
    (rewrites : Rewrites (.left node) leftNodes arena next left leftHeld) :
    Holds next (.right node) right rightNodes ∧ Clear next (.right node) rightNodes := by
  have holds : Holds next (.right node) right rightNodes := by
    refine onRight.of_frame (by grind) rewrites.frame nofun (by grind) ?_ ?_
    · exact outside_right.mpr ⟨inside, by grind⟩
    · intro parent isParent
      obtain rfl : node = parent := Option.some.inj isParent
      grind
  refine ⟨holds, ?_, ?_⟩
  · exact outside_right.mpr
      ⟨Nat.lt_of_lt_of_le inside rewrites.frame.size_le, by grind⟩
  · intro parent sibling same onLeft
    obtain rfl : node = parent := Slot.right.inj same
    have held := rewrites.holds.child_mem onLeft
    refine ⟨rewrites.holds.lt_size sibling held, fun membership => ?_⟩
    have old := onRight.lt_size sibling membership
    rcases rewrites.within sibling held with before | new
    · grind
    · omega

variable (hangs : arena.child? slot = some node)
  (label : arena.label? node = some (.operator operator))
  (outside : arena.Outside (leftNodes ++ rightNodes ++ [node]) slot)
  (first : Rewrites (.left node) leftNodes arena next left leftHeld)
  (second : Rewrites (.right node) rightNodes next final right rightHeld)

include hangs outside first second

/-- A node stays in its slot while its children are rewritten. -/
theorem Rewrites.hangs_of_children : final.child? slot = some node := by
  have different (below : Slot) (belongs : below.parent? = some node) : slot ≠ below := by
    rintro rfl
    exact (outside node belongs).2 (by simp)
  have outsideLeft : arena.Outside leftNodes slot :=
    fun parent isParent => ⟨(outside parent isParent).1, by grind [outside parent isParent]⟩
  have outsideRight : arena.Outside rightNodes slot :=
    fun parent isParent => ⟨(outside parent isParent).1, by grind [outside parent isParent]⟩
  rw [second.frame.child slot (different _ rfl) (outsideRight.of_frame first.frame),
    first.frame.child slot (different _ rfl) outsideLeft, hangs]

include label

/-- Rewriting the left child of a node and then the right one rewrites the node. -/
theorem Rewrites.apply (linked : arena.parent? node = slot.parent?)
    (nodup : (leftNodes ++ rightNodes ++ [node]).Nodup)
    (small : ∀ other ∈ leftNodes ++ rightNodes, other < arena.size) :
    Rewrites slot (leftNodes ++ rightNodes ++ [node]) arena final (.apply operator left right)
      (leftHeld ++ rightHeld ++ [node]) := by
  have inside := lt_size_of_label? label
  have grown := first.frame.size_le
  have insideNext := Nat.lt_of_lt_of_le inside grown
  have leftBound := first.holds.lt_size
  have leftWithin := first.within
  have rightWithin := second.within
  have firstFrame : Frame slot (leftNodes ++ rightNodes ++ [node]) arena next :=
    first.frame.widen rfl (by simp) (by grind)
  have secondFrame : Frame slot (leftNodes ++ rightNodes ++ [node]) next final :=
    second.frame.widen rfl (by simp) (by grind)
  have frame : Frame slot (leftNodes ++ rightNodes ++ [node]) arena final :=
    firstFrame.trans secondFrame fun _ membership => Or.inl membership
  have onLeft : Holds final (.left node) left leftHeld := by
    refine first.holds.of_frame first.nodup second.frame nofun (by grind) ?_ ?_
    · exact outside_left.mpr ⟨insideNext, by grind⟩
    · intro parent isParent
      obtain rfl : node = parent := Option.some.inj isParent
      grind
  have linkedFinal : final.parent? node = slot.parent? := by
    rw [second.frame.parent node insideNext (by grind),
      first.frame.parent node inside (by grind), linked]
  have labelFinal : final.label? node = some (.operator operator) := by
    rw [frame.label node inside, label]
  have hangsFinal := Rewrites.hangs_of_children hangs outside first second
  refine ⟨.apply hangsFinal linkedFinal labelFinal onLeft second.holds, ?_, ?_, frame⟩
  · have leftNodup := first.nodup
    have rightNodup := second.nodup
    grind
  · grind

end

/-! ## Products -/

section

variable {factor : String}

theorem Wraps.frame (wraps : Wraps slot factor arena next)
    (holds : Holds arena slot expr nodes) : Frame slot nodes arena next where
  size_le := by
    have size := wraps.size
    omega
  label node inside := by
    rw [wraps.label, if_neg (by omega), if_neg (by omega)]
  parent node inside free := by
    have different : arena.child? slot ≠ some node := fun hangs => free (holds.child_mem hangs)
    rw [wraps.parent, if_neg (by omega), if_neg (by grind)]
  child other different outside := by
    refine wraps.child_of_ne different fun parent => ?_
    have inside := (outside _ parent).1
    omega

/-- What hung in the slot hangs to the right of the product. -/
theorem Wraps.holds (wraps : Wraps slot factor arena next) (holds : Holds arena slot expr nodes)
    (nodup : nodes.Nodup) (outside : arena.Outside nodes slot) :
    Holds next (.right arena.size) expr nodes := by
  have inside := holds.lt_size
  have kept : ∀ node ∈ nodes, ∀ below : Slot, below.parent? = some node →
      next.child? below = arena.child? below := by
    intro node membership below belongs
    refine wraps.child_of_ne ?_ ?_
    · rintro rfl
      exact (outside node belongs).2 membership
    · have bound := inside node membership
      simp only [belongs, ne_eq, Option.some.injEq]
      omega
  refine holds.move nodup ?_ ?_ ?_ ?_ ?_ ?_
  · exact wraps.child_right
  · intro node hangs
    have bound := inside node (holds.child_mem hangs)
    rw [wraps.parent, if_neg (by omega), if_pos (Or.inr hangs), Slot.parent?_right]
  · exact fun node membership => (wraps.frame holds).label node (inside node membership)
  · exact fun node membership => kept node membership (.left node) rfl
  · exact fun node membership => kept node membership (.right node) rfl
  · intro node membership notFirst
    have bound := inside node membership
    rw [wraps.parent, if_neg (by omega), if_neg (by grind)]

/-- Rewriting below a product with a factor. -/
theorem Wraps.rewrites {replaced : Expr} (wraps : Wraps slot factor arena next)
    (holds : Holds arena slot expr nodes) (outside : arena.Outside nodes slot)
    (below : Rewrites (.right arena.size) nodes next final replaced held) :
    Rewrites slot nodes arena final (.times factor replaced)
      ([arena.size + 1] ++ held ++ [arena.size]) := by
  have inside := holds.lt_size
  have size := wraps.size
  have within := below.within
  have free : arena.size ∉ nodes := fun membership => absurd (inside _ membership) (by omega)
  have freeFactor : arena.size + 1 ∉ nodes := fun membership =>
    absurd (inside _ membership) (by omega)
  have wide : Frame slot (arena.size :: nodes) next final :=
    below.frame.widen rfl (by simp) (by simp)
  have frame : Frame slot nodes arena final := (wraps.frame holds).trans wide (by grind)
  have hangs : final.child? slot = some arena.size := by
    rw [below.frame.child slot, wraps.child_self fun parent isParent => (outside parent isParent).1]
    · rintro rfl
      exact absurd (outside arena.size rfl).1 (by omega)
    · exact outside.of_frame (wraps.frame holds)
  have linked : final.parent? arena.size = slot.parent? := by
    rw [below.frame.parent _ (by omega) free, wraps.parent, if_pos rfl]
  have isTimes : final.label? arena.size = some (.operator .times) := by
    rw [below.frame.label _ (by omega), wraps.label, if_pos rfl]
  have onLeft : Holds final (.left arena.size) (.number factor) [arena.size + 1] := by
    have empty (other : Slot) (belongs : other.parent? = some (arena.size + 1)) :
        final.child? other = none := by
      have outsideNext : next.Outside nodes other := by
        intro parent isParent
        obtain rfl := Option.some.inj (belongs.symm.trans isParent)
        exact ⟨by omega, freeFactor⟩
      have different : other ≠ slot := by
        rintro rfl
        exact absurd (outside _ belongs).1 (by omega)
      rw [below.frame.child other ?_ outsideNext, wraps.child_of_ne different (by simp [belongs]),
        child?_eq_none belongs (by omega)]
      rintro rfl
      simp at belongs
    refine .number ?_ ?_ ?_ (empty (.left _) rfl) (empty (.right _) rfl)
    · rw [below.frame.child (.left arena.size) nofun (outside_left.mpr ⟨by omega, free⟩),
        wraps.child_left]
    · rw [below.frame.parent _ (by omega) freeFactor, wraps.parent, if_neg (by omega),
        if_pos (Or.inl rfl)]
      rfl
    · rw [below.frame.label _ (by omega), wraps.label, if_neg (by omega), if_pos rfl]
  refine ⟨.apply hangs linked isTimes onLeft below.holds, ?_, ?_, frame⟩
  · have nodup := below.nodup
    grind
  · grind

end

end ComponentModel.Equation.Arena
