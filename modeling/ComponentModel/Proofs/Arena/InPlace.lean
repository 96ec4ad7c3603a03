import ComponentModel.Proofs.Arena.Building
import ComponentModel.Proofs.Mentions

/-!
# Scaling in place

Scaling an expression in its arena visits the nodes that were there at the beginning, children
before their parents, and changes the links of nodes that are still to be visited. What it leaves
is nevertheless the expression that the recursive scaling makes of the one before. The proof goes
along the recursion: the nodes of a subexpression are visited one after the other, nothing outside
of its slot changes meanwhile, and the only change that reaches across, the product on the right of
an assignment to a rate, is made before the nodes on the right are visited.
-/

namespace ComponentModel.Equation.Arena

variable {rule : FactorRule} {arena next final : Arena} {slot : Slot} {node : Nat} {kept : Bool}
  {expr left right : Expr} {nodes held leftNodes rightNodes : List Nat}

/-! ## One node -/

theorem scaleNode_of_operator {operator : Operator}
    (label : arena.label? node = some (.operator operator)) :
    arena.scaleNode rule node = arena := by
  simp [scaleNode, label]

theorem scaleNode_of_number {text : String} (label : arena.label? node = some (.number text)) :
    arena.scaleNode rule node = arena := by
  simp [scaleNode, label]

section

variable {declaration parent : Nat} (label : arena.label? node = some (.reference declaration))

include label

theorem scaleNode_of_bvar (linked : arena.parent? node = some parent)
    (isBvar : arena.label? parent = some (.operator .bvar)) :
    arena.scaleNode rule node = arena := by
  simp [scaleNode, label, linked, isBvar]

theorem scaleNode_of_diff (linked : arena.parent? node = some parent)
    (isDiff : arena.label? parent = some (.operator .diff)) :
    arena.scaleNode rule node = arena.scaleRate rule parent := by
  simp [scaleNode, label, linked, isDiff]

theorem scaleNode_of_free (free : ∀ parent, arena.parent? node = some parent →
      arena.label? parent ≠ some (.operator .diff) ∧
        arena.label? parent ≠ some (.operator .bvar)) :
    arena.scaleNode rule node =
      match rule declaration with
      | some factor => arena.wrap node factor.text
      | none => arena := by
  unfold scaleNode
  simp only [label]
  split
  case h_1 parent linked isDiff => exact absurd (by simpa [linked] using isDiff) (free parent linked).1
  case h_2 parent linked isBvar => exact absurd (by simpa [linked] using isBvar) (free parent linked).2
  case h_3 => rfl

end

/-! ## Labels stay -/

/-- Dividing by a factor keeps the labels of all nodes. -/
theorem label?_divide {factor : Factor} {other : Nat} (inside : other < arena.size) :
    (arena.divide node factor).label? other = arena.label? other := by
  have label?_replace (arena : Arena) (old new : Nat) :
      (arena.replace old new).label? other = arena.label? other := by
    unfold replace
    split
    · split
      · rw [setLeft_eq_setChild, label?_setChild]
      · rw [setRight_eq_setChild, label?_setChild]
    · exact label?_setChild arena .root (some new) other
  unfold divide
  split
  · simp only [wrapRight, setLeft_eq_setChild, setRight_eq_setChild, label?_setChild, label?_push,
      size_push]
    rw [if_neg (by omega), if_neg (by omega)]
  · simp only [wrap, setLeft_eq_setChild, setRight_eq_setChild, label?_setChild, label?_replace,
      label?_push, size_push]
    rw [if_neg (by omega), if_neg (by omega)]

/-! ## One slot -/

/-- The slot of an expression is one that the recursion comes to: what is directly inside a bound
variable is kept and the rest of the references is not, and no rate that is assigned to is scaled by
itself. -/
structure Fits (arena : Arena) (slot : Slot) (kept : Bool) (expr : Expr) : Prop where
  bound : ∀ declaration, expr = .reference declaration → kept = true →
    ∃ parent, slot.parent? = some parent ∧ arena.label? parent = some (.operator .bvar)
  free : ∀ declaration, expr = .reference declaration → kept = false →
    ∀ parent, slot.parent? = some parent → arena.label? parent ≠ some (.operator .diff) ∧
      arena.label? parent ≠ some (.operator .bvar)
  rate : ∀ left right parent, expr = .apply .diff left right → slot = .left parent →
    arena.label? parent ≠ some (.operator .assignment)

/-- Visiting the nodes of an expression in a slot scales the expression. -/
def Scales (rule : FactorRule) (kept : Bool) (expr : Expr) : Prop :=
  ∀ ⦃arena : Arena⦄ ⦃slot : Slot⦄ ⦃nodes : List Nat⦄, Holds arena slot expr nodes → nodes.Nodup →
    Clear arena slot nodes → Fits arena slot kept expr →
    ∃ held, Rewrites slot nodes arena (nodes.foldl (scaleNode rule) arena)
      (expr.rescale rule kept) held

/-- Multiplying what hangs in a slot by a factor. -/
theorem rewrites_wrap (holds : Holds arena slot expr nodes) (nodup : nodes.Nodup)
    (clear : Clear arena slot nodes) (hangs : arena.child? slot = some node) (factor : String) :
    ∃ held, Rewrites slot nodes arena (arena.wrap node factor) (.times factor expr) held := by
  have membership := holds.child_mem hangs
  have wraps : Wraps slot factor arena (arena.wrap node factor) := by
    refine wraps_wrap hangs (holds.lt_size node membership)
      (fun parent isParent => (clear.outside parent isParent).1) (holds.linked hangs) ?_ factor
    intro parent isRight onLeft
    exact (clear.alone parent node isRight onLeft).2 membership
  exact ⟨_, wraps.rewrites holds clear.outside
    (.refl (wraps.holds holds nodup clear.outside) nodup)⟩

theorem scales_absent : Scales rule kept .absent := by
  intro arena slot nodes holds nodup _ _
  obtain rfl : nodes = [] := by cases holds; rfl
  exact ⟨[], .refl holds nodup⟩

theorem scales_number {text : String} : Scales rule kept (.number text) := by
  intro arena slot nodes holds nodup _ _
  have same : nodes.foldl (scaleNode rule) arena = arena := by
    cases holds with
    | number _ _ label => exact scaleNode_of_number label
  rw [same]
  exact ⟨nodes, .refl holds nodup⟩

theorem scales_reference {declaration : Nat} : Scales rule kept (.reference declaration) := by
  intro arena slot nodes holds nodup clear fits
  cases holds with
  | @reference _ node _ hangs linked label noLeft noRight =>
    have holds : Holds arena slot (.reference declaration) [node] :=
      .reference hangs linked label noLeft noRight
    rw [List.foldl_cons, List.foldl_nil]
    cases kept with
    | true =>
        obtain ⟨parent, isParent, isBvar⟩ := fits.bound declaration rfl rfl
        rw [scaleNode_of_bvar label (linked.trans isParent) isBvar]
        exact ⟨_, .refl holds nodup⟩
    | false =>
        have free := fits.free declaration rfl rfl
        rw [scaleNode_of_free label fun parent isParent => free parent (linked.symm.trans isParent)]
        cases factor : rule declaration with
        | none =>
            rw [show (Expr.reference declaration).rescale rule false = .reference declaration by
              simp [Expr.rescale, Expr.scaled, factor]]
            exact ⟨_, .refl holds nodup⟩
        | some factor' =>
            rw [show (Expr.reference declaration).rescale rule false =
              .times factor'.text (.reference declaration) by
                simp [Expr.rescale, Expr.scaled, factor]]
            exact rewrites_wrap holds nodup clear hangs factor'.text

/-! ## Derivatives -/

theorem rateFactor_of_ne_reference (notReference : ∀ declaration, right ≠ .reference declaration) :
    Expr.rateFactor rule (.apply .diff left right) = none := by
  unfold Expr.rateFactor
  split
  case h_1 equal =>
    obtain ⟨-, -, rfl⟩ := Expr.apply.inj equal
    exact absurd rfl (notReference _)
  case h_2 => rfl

/-- The factor of a derivative is read off the nodes on its left. -/
theorem rateFactor_of_holds (declaration : Nat) (onLeft : Holds arena (.left node) left leftNodes) :
    arena.rateFactor rule node =
      Expr.rateFactor rule (.apply .diff left (.reference declaration)) := by
  unfold rateFactor
  cases onLeft with
  | absent empty => simp [show arena.left? node = none from empty, Expr.rateFactor]
  | @reference _ child _ hangs _ _ noLeft =>
      simp [show arena.left? node = some child from hangs, noLeft, Expr.rateFactor]
  | @number _ child _ hangs _ _ noLeft =>
      simp [show arena.left? node = some child from hangs, noLeft, Expr.rateFactor]
  | @apply _ child _ _ _ _ _ hangs _ _ below =>
      simp only [show arena.left? node = some child from hangs, Option.bind_some]
      cases below with
      | absent empty => simp [show arena.left? child = none from empty, Expr.rateFactor]
      | @reference _ bound _ hangs _ label =>
          simp [show arena.left? child = some bound from hangs, label, Expr.rateFactor]
      | @number _ number _ hangs _ label =>
          simp [show arena.left? child = some number from hangs, label, Expr.rateFactor]
      | @apply _ operator _ _ _ _ _ hangs _ label =>
          simp [show arena.left? child = some operator from hangs, label, Expr.rateFactor]

/-- Visiting the left child of a derivative scales it: a reference there has no bound variable to
look up. -/
theorem scales_left_of_diff (label : arena.label? node = some (.operator .diff))
    (onLeft : Holds arena (.left node) left leftNodes) (nodup : leftNodes.Nodup)
    (free : node ∉ leftNodes) (scales : Scales rule true left) :
    ∃ held, Rewrites (.left node) leftNodes arena (leftNodes.foldl (scaleNode rule) arena)
      (left.rescale rule true) held := by
  have clear : Clear arena (.left node) leftNodes :=
    ⟨outside_left.mpr ⟨lt_size_of_label? label, free⟩, nofun⟩
  cases left with
  | reference declaration =>
      cases onLeft with
      | @reference _ child _ hangs linked isReference noLeft noRight =>
          have noFactor : arena.rateFactor rule node = none := by
            simp [rateFactor, show arena.left? node = some child from hangs, noLeft]
          have same : [child].foldl (scaleNode rule) arena = arena := by
            rw [List.foldl_cons, List.foldl_nil, scaleNode_of_diff isReference linked label,
              scaleRate, noFactor]
          rw [same]
          exact ⟨[child], .refl (.reference hangs linked isReference noLeft noRight) nodup⟩
  | absent => exact scales onLeft nodup clear ⟨nofun, nofun, nofun⟩
  | number => exact scales onLeft nodup clear ⟨nofun, nofun, nofun⟩
  | apply =>
      refine scales onLeft nodup clear ⟨nofun, nofun, fun _ _ parent _ isLeft => ?_⟩
      obtain rfl : node = parent := Slot.left.inj isLeft
      simp [label]

/-- Visiting the nodes of a derivative scales its children and then divides it by the factor of its
bound variable, or multiplies what is assigned to it. -/
theorem exists_divide (holds : Holds arena slot (.apply .diff left right) nodes)
    (nodup : nodes.Nodup) (clear : Clear arena slot nodes)
    (scalesLeft : Scales rule true left) (scalesRight : Scales rule true right) :
    let rate : Expr := .apply .diff (left.rescale rule true) (right.rescale rule true)
    ∃ middle node held, Rewrites slot nodes arena middle rate held ∧
      middle.child? slot = some node ∧
      nodes.foldl (scaleNode rule) arena =
        match Expr.rateFactor rule rate with
        | some factor => middle.divide node factor
        | none => middle := by
  intro rate
  cases holds with
  | @apply _ node _ _ _ leftNodes rightNodes hangs linked label onLeft onRight =>
  have inside := lt_size_of_label? label
  have small := onLeft.lt_size_append onRight
  obtain ⟨leftHeld, first⟩ := scales_left_of_diff label onLeft (by grind) (by grind) scalesLeft
  rw [List.foldl_append, List.foldl_append]
  generalize leftNodes.foldl (scaleNode rule) arena = next at first ⊢
  obtain ⟨onRight', clear'⟩ := first.right_of_left inside onRight nodup
  have insideNext : node < next.size := Nat.lt_of_lt_of_le inside first.frame.size_le
  have label' : next.label? node = some (.operator .diff) :=
    (first.frame.label node inside).trans label
  by_cases isReference : ∃ declaration, right = .reference declaration
  · obtain ⟨declaration, rfl⟩ := isReference
    have second := Rewrites.refl onRight' (by grind)
    refine ⟨next, node, _, first.apply hangs label clear.outside second linked nodup small,
      Rewrites.hangs_of_children hangs clear.outside first second, ?_⟩
    have visit : rightNodes.foldl (scaleNode rule) next = next.scaleRate rule node := by
      cases onRight' with
      | @reference _ child _ hangs' linked' label'' =>
          exact scaleNode_of_diff label'' linked' label'
    have factor : next.rateFactor rule node = Expr.rateFactor rule rate :=
      rateFactor_of_holds declaration first.holds
    rw [visit, scaleRate, factor]
    cases Expr.rateFactor rule rate with
    | none => exact scaleNode_of_operator label'
    | some factor => exact scaleNode_of_operator ((label?_divide insideNext).trans label')
  · obtain ⟨rightHeld, second⟩ := scalesRight onRight' (by grind) clear'
      ⟨fun declaration same => absurd ⟨declaration, same⟩ isReference,
        fun declaration same => absurd ⟨declaration, same⟩ isReference, nofun⟩
    have noFactor : Expr.rateFactor rule rate = none := rateFactor_of_ne_reference
      fun declaration scaled => isReference ⟨declaration, (Expr.rescale_eq_reference.mp scaled).1⟩
    generalize rightNodes.foldl (scaleNode rule) next = middle at second ⊢
    refine ⟨middle, node, _, first.apply hangs label clear.outside second linked nodup small,
      Rewrites.hangs_of_children hangs clear.outside first second, ?_⟩
    rw [noFactor]
    exact scaleNode_of_operator ((second.frame.label node insideNext).trans label')

/-- A derivative in a slot that fits is not assigned to. -/
theorem assignment?_eq_none (holds : Holds arena slot expr nodes) (clear : Clear arena slot nodes)
    (hangs : arena.child? slot = some node)
    (notAssigned : ∀ parent, slot = .left parent →
      arena.label? parent ≠ some (.operator .assignment)) :
    arena.assignment? node = none := by
  rw [assignment?, holds.linked hangs, Option.filter_eq_none_iff]
  intro parent isParent
  cases slot with
  | root => cases isParent
  | left parent' =>
      obtain rfl : parent' = parent := Option.some.inj isParent
      simp [notAssigned parent' rfl]
  | right parent' =>
      obtain rfl : parent' = parent := Option.some.inj isParent
      have notLeft : arena.left? parent' ≠ some node := fun onLeft =>
        (clear.alone parent' node rfl onLeft).2 (holds.child_mem hangs)
      simp [notLeft]

theorem scales_diff (scalesLeft : Scales rule true left) (scalesRight : Scales rule true right) :
    Scales rule kept (.apply .diff left right) := by
  intro arena slot nodes holds nodup clear fits
  obtain ⟨middle, node, held, rewrites, hangs, visit⟩ :=
    exists_divide holds nodup clear scalesLeft scalesRight
  rw [visit, Expr.rescale]
  cases Expr.rateFactor rule (.apply .diff (left.rescale rule true) (right.rescale rule true)) with
  | none => exact ⟨held, rewrites⟩
  | some factor =>
      have clear' := clear.of_rewrites rewrites
      have notAssigned : middle.assignment? node = none := by
        refine assignment?_eq_none rewrites.holds clear' hangs fun parent isLeft => ?_
        have inside := (clear.outside parent (by rw [isLeft]; rfl)).1
        rw [rewrites.frame.label parent inside]
        exact fits.rate left right parent rfl isLeft
      obtain ⟨held', second⟩ :=
        rewrites_wrap rewrites.holds rewrites.nodup clear' hangs factor.reciprocal
      simp only [divide, notAssigned]
      exact ⟨held', rewrites.trans second⟩

/-! ## Other operators -/

theorem scales_apply {operator : Operator}
    (notRate : ∀ left' right', operator = .assignment → left ≠ .apply .diff left' right')
    (notDiff : operator ≠ .diff) (scalesLeft : Scales rule (operator == .bvar) left)
    (scalesRight : Scales rule (operator == .bvar) right) :
    Scales rule kept (.apply operator left right) := by
  intro arena slot nodes holds nodup clear _
  cases holds with
  | @apply _ node _ _ _ leftNodes rightNodes hangs linked label onLeft onRight =>
  have inside := lt_size_of_label? label
  have small := onLeft.lt_size_append onRight
  have fits {arena : Arena} (label : arena.label? node = some (.operator operator)) (slot : Slot)
      (belongs : slot.parent? = some node) (child : Expr)
      (isChild : slot = .left node → child = left) : Fits arena slot (operator == .bvar) child := by
    refine ⟨fun _ _ isBvar => ⟨node, belongs, ?_⟩, fun _ _ notBvar parent isParent => ?_,
      fun left' right' parent isDiff isLeft => ?_⟩
    · rw [label, eq_of_beq isBvar]
    · obtain rfl := Option.some.inj (belongs.symm.trans isParent)
      simp_all
    · obtain rfl : node = parent := by simpa [isLeft] using belongs.symm
      intro isAssignment
      have same : operator = .assignment := by simpa [label] using isAssignment
      exact notRate left' right' same ((isChild isLeft).symm.trans isDiff)
  obtain ⟨leftHeld, first⟩ := scalesLeft onLeft (by grind)
    ⟨outside_left.mpr ⟨inside, by grind⟩, nofun⟩ (fits label (.left node) rfl left fun _ => rfl)
  rw [List.foldl_append, List.foldl_append, Expr.rescale]
  · generalize leftNodes.foldl (scaleNode rule) arena = next at first ⊢
    obtain ⟨onRight', clear'⟩ := first.right_of_left inside onRight nodup
    have insideNext : node < next.size := Nat.lt_of_lt_of_le inside first.frame.size_le
    have label' : next.label? node = some (.operator operator) :=
      (first.frame.label node inside).trans label
    obtain ⟨rightHeld, second⟩ :=
      scalesRight onRight' (by grind) clear' (fits label' (.right node) rfl right nofun)
    generalize rightNodes.foldl (scaleNode rule) next = final at second ⊢
    have label'' := (second.frame.label node insideNext).trans label'
    rw [List.foldl_cons, List.foldl_nil, scaleNode_of_operator label'']
    exact ⟨_, first.apply hangs label clear.outside second linked nodup small⟩
  · exact notRate
  · exact notDiff

/-- The right-hand side of an assignment is scaled in the slot where it is when its nodes are
visited, be it below a product or not. -/
theorem exists_scaled_right {other : Expr} (factor? : Option Factor) {diff : Nat}
    (label : arena.label? node = some (.operator .assignment))
    (assigned : arena.assignment? diff = some node)
    (onRight : Holds arena (.right node) other nodes) (nodup : nodes.Nodup)
    (clear : Clear arena (.right node) nodes) (scalesOther : Scales rule false other) :
    ∃ held, Rewrites (.right node) nodes arena
      (nodes.foldl (scaleNode rule) (match factor? with
        | some factor => arena.divide diff factor
        | none => arena))
      (Expr.scaled factor? (other.rescale rule false)) held := by
  have fits {arena : Arena} {node : Nat} {operator : Operator}
      (label : arena.label? node = some (.operator operator)) (notDiff : operator ≠ .diff)
      (notBvar : operator ≠ .bvar) : Fits arena (.right node) false other := by
    refine ⟨nofun, fun _ _ _ parent isParent => ?_, nofun⟩
    obtain rfl : node = parent := Option.some.inj isParent
    simp [label, notDiff, notBvar]
  cases factor? with
  | none => exact scalesOther onRight nodup clear (fits label nofun nofun)
  | some factor =>
      have inside := onRight.lt_size
      have wraps : Wraps (.right node) factor.text arena (arena.wrapRight node factor.text) :=
        wraps_wrapRight (lt_size_of_label? label)
          (fun child isChild => inside child (onRight.child_mem isChild)) factor.text
      have size := wraps.size
      have apart : ∀ fresh, arena.size ≤ fresh → fresh ∉ nodes := fun fresh bound membership =>
        absurd (inside fresh membership) (by omega)
      have clear' : Clear (arena.wrapRight node factor.text) (.right arena.size) nodes := by
        refine ⟨outside_right.mpr ⟨by omega, apart _ (Nat.le_refl _)⟩, ?_⟩
        intro parent sibling same onLeft
        obtain rfl : arena.size = parent := Slot.right.inj same
        obtain rfl : arena.size + 1 = sibling :=
          Option.some.inj (wraps.child_left.symm.trans onLeft)
        exact ⟨by omega, apart _ (Nat.le_succ _)⟩
      have isTimes : (arena.wrapRight node factor.text).label? arena.size =
          some (.operator .times) := by
        rw [wraps.label, if_pos rfl]
      obtain ⟨held, below⟩ := scalesOther (wraps.holds onRight nodup clear.outside) nodup clear'
        (fits isTimes nofun nofun)
      simp only [divide, assigned]
      exact ⟨_, wraps.rewrites onRight clear.outside below⟩

/-- In an assignment to a rate the product on the right is put in before the right-hand side is
visited. -/
theorem scales_assignment {other : Expr} (scalesLeft : Scales rule true left)
    (scalesRight : Scales rule true right) (scalesOther : Scales rule false other) :
    Scales rule kept (.apply .assignment (.apply .diff left right) other) := by
  intro arena slot nodes holds nodup clear _
  cases holds with
  | @apply _ node _ _ _ rateNodes otherNodes hangs linked label onLeft onRight =>
  have inside := lt_size_of_label? label
  have small := onLeft.lt_size_append onRight
  obtain ⟨middle, diff, rateHeld, first, hangsRate, visit⟩ := exists_divide onLeft (by grind)
    ⟨outside_left.mpr ⟨inside, by grind⟩, nofun⟩ scalesLeft scalesRight
  obtain ⟨onRight', clear'⟩ := first.right_of_left inside onRight nodup
  have insideMiddle : node < middle.size := Nat.lt_of_lt_of_le inside first.frame.size_le
  have label' : middle.label? node = some (.operator .assignment) :=
    (first.frame.label node inside).trans label
  have assigned : middle.assignment? diff = some node := by
    rw [assignment?, first.holds.linked hangsRate, Option.filter_eq_some_iff]
    simp [label', show middle.left? node = some diff from hangsRate]
  rw [List.foldl_append, List.foldl_append, visit, Expr.rescale]
  obtain ⟨otherHeld, second⟩ := exists_scaled_right
    (Expr.rateFactor rule (.apply .diff (left.rescale rule true) (right.rescale rule true)))
    label' assigned onRight' (by grind) clear' scalesOther
  have label'' := (second.frame.label node insideMiddle).trans label'
  rw [List.foldl_cons, List.foldl_nil, scaleNode_of_operator label'']
  exact ⟨_, first.apply hangs label clear.outside second linked nodup small⟩

/-- Visiting the nodes of any expression scales it. -/
theorem scales (rule : FactorRule) (kept : Bool) (expr : Expr) : Scales rule kept expr :=
  Expr.rescale.induct rule (Scales rule) (fun _ => scales_absent) (fun _ _ => scales_number)
    (fun _ => scales_reference) (fun _ _ _ => scales_reference)
    (fun _ _ _ _ => scales_assignment) (fun _ _ _ => scales_diff)
    (fun _ _ _ _ notRate notDiff => scales_apply notRate notDiff) kept expr

/-! ## The whole arena -/

theorem clear_root (arena : Arena) (nodes : List Nat) : Clear arena .root nodes :=
  ⟨outside_root arena nodes, nofun⟩

theorem fits_root (arena : Arena) (expr : Expr) : Fits arena .root false expr :=
  ⟨nofun, nofun, nofun⟩

/-- Scaling an arena in place scales the expression that it represents. -/
theorem Represents.scale (represents : arena.Represents expr) (rule : FactorRule) :
    (arena.scale rule).Represents (expr.rescale rule false) := by
  obtain ⟨nodes, holds, nodup⟩ := represents
  obtain ⟨held, rewrites⟩ :=
    scales rule false expr holds nodup (clear_root arena nodes) (fits_root arena expr)
  rw [Arena.scale, holds.postOrder_eq nodup]
  exact ⟨held, rewrites.holds, rewrites.nodup⟩

/-- After scaling in place an arena is a tree again, and the expression read from it is the one read
before with every reference and every derivative scaled where it stands, once. -/
theorem expr_scale (represents : arena.Represents expr) (rule : FactorRule) :
    (arena.scale rule).Represents (expr.rescale rule false) ∧
      (arena.scale rule).expr = arena.expr.rescale rule false := by
  have scaled := represents.scale rule
  exact ⟨scaled, by rw [scaled.expr_eq, represents.expr_eq]⟩

/-- The nodes of an equation for the rate of one variable, which is the value of another one, in the
sequence in which they are read. -/
def rateArena : Arena where
  nodes :=
    [⟨.operator .assignment, some 1, some 5, none⟩,
     ⟨.operator .diff, some 2, some 4, some 0⟩,
     ⟨.operator .bvar, some 3, none, some 1⟩,
     ⟨.reference 0, none, none, some 2⟩,
     ⟨.reference 1, none, none, some 1⟩,
     ⟨.reference 2, none, none, some 0⟩]
  root := some 0

/-- With factors for the variable of integration and for the value, the value is multiplied by
both. -/
theorem rateArena_scale :
    rateArena.Represents (.apply .assignment
      (.apply .diff (.apply .bvar (.reference 0) .absent) (.reference 1)) (.reference 2)) ∧
    (rateArena.scale fun declaration =>
      if declaration = 0 then some ⟨"60", "0.016666666666666666"⟩
      else if declaration = 2 then some ⟨"0.001", "1000"⟩
      else none).expr =
      .apply .assignment (.apply .diff (.apply .bvar (.reference 0) .absent) (.reference 1))
        (.times "60" (.times "0.001" (.reference 2))) := by
  have represents : rateArena.Represents (.apply .assignment
      (.apply .diff (.apply .bvar (.reference 0) .absent) (.reference 1)) (.reference 2)) :=
    ⟨_, .apply rfl rfl rfl (.apply rfl rfl rfl
      (.apply rfl rfl rfl (.reference rfl rfl rfl rfl rfl) (.absent rfl))
      (.reference rfl rfl rfl rfl rfl)) (.reference rfl rfl rfl rfl rfl), by decide⟩
  exact ⟨represents, (expr_scale represents _).2.trans (by decide)⟩

end ComponentModel.Equation.Arena

namespace ComponentModel.Equation

theorem Expr.scaledInPlace_eq (rule : FactorRule) (expr : Expr) :
    expr.scaledInPlace rule = expr.rescale rule false :=
  ((Arena.represents_ofExpr expr).scale rule).expr_eq

end ComponentModel.Equation
