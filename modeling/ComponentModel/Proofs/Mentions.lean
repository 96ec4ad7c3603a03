import ComponentModel.Equation.Reader
import ComponentModel.Equation.Scaling
import Mathlib.Tactic.ByContra

/-!
# Mentions of variables

An expression refers to variables in three roles, which depend on what stands above the reference.
The roles can be read off the finished tree. They agree with the roles under which the reader
notes its mentions and with the findings about derivatives, and scaling does not change them.
-/

namespace ComponentModel.Equation

/-- The role of what stands below an operator that stands in a role itself. -/
def childRole (operator : Operator) (role : Role) : Role :=
  if operator == .bvar then boundRole role else argumentRole operator

/-- A declared variable with the role in which it is mentioned. -/
def Mention.declared? : Mention → Option (Role × Nat)
  | .declared role declaration => some (role, declaration)
  | .undeclared _ => none

namespace Expr

/-- The references of an expression that stands in a role, each with its own role. -/
def mentions (role : Role) : Expr → List (Role × Nat)
  | absent => []
  | reference declaration => [(role, declaration)]
  | number _ => []
  | apply operator left right =>
      left.mentions (childRole operator role) ++ right.mentions (childRole operator role)

end Expr

/-! ## Reading -/

/-- No element of its own stands for a bound variable. -/
theorem ofElement?_ne_bvar {name : String} {operator : Operator}
    (found : Operator.ofElement? name = some operator) : operator ≠ .bvar := by
  have membership : ∀ entry ∈ Operator.elements, entry.2 ≠ .bvar := by decide
  obtain ⟨front, back, split, -⟩ := List.lookup_eq_some_iff.mp found
  exact membership (name, operator) (by simp [split])

theorem childRole_applied {operator : Operator} (outermost : Bool) (role : Role)
    (plain : operator ≠ .bvar) :
    childRole (applied outermost operator) role = argumentRole operator := by
  unfold applied
  split
  case isTrue equality =>
    simp only [Bool.and_eq_true, beq_iff_eq] at equality
    rw [equality.2]
    rfl
  case isFalse => simp [childRole, plain]

variable (declaration? : String → Option Nat)

/-- What has been read in a role mentions what stands in the tree, and only declared names. -/
structure Read.Agrees (role : Role) (read : Read) : Prop where
  mentions : read.2.filterMap Mention.declared? = read.1.mentions role
  declared : ∀ mention ∈ read.1.mentions role, ∃ name, declaration? name = some mention.2

namespace Read

variable {declaration?}

theorem agrees_of_nil {role : Role} {expr : Expr} (none : expr.mentions role = []) :
    Agrees declaration? role (expr, []) :=
  ⟨none.symm, by simp [none]⟩

/-- An operator on what agrees agrees. -/
theorem Agrees.apply {operator : Operator} {role outer : Role} {left right : Read}
    (below : childRole operator outer = role) (leftAgrees : Agrees declaration? role left)
    (rightAgrees : Agrees declaration? role right) :
    Agrees declaration? outer (Read.apply operator left right) where
  mentions := by
    rw [Read.apply, List.filterMap_append, leftAgrees.mentions, rightAgrees.mentions,
      Expr.mentions, below]
  declared := by
    intro mention membership
    rw [Read.apply, Expr.mentions, below] at membership
    rcases List.mem_append.mp membership with inLeft | inRight
    · exact leftAgrees.declared mention inLeft
    · exact rightAgrees.declared mention inRight

theorem Agrees.ite {condition : Prop} [Decidable condition] {role : Role} {first second : Read}
    (isFirst : Agrees declaration? role first) (isSecond : Agrees declaration? role second) :
    Agrees declaration? role (if condition then first else second) := by
  split
  case isTrue => exact isFirst
  case isFalse => exact isSecond

theorem agrees_absent {role : Role} : Agrees declaration? role .absent :=
  agrees_of_nil rfl

theorem agrees_name (role : Role) (written : String) :
    Agrees declaration? role (name declaration? role written) := by
  unfold name
  cases found : declaration? written with
  | none => exact ⟨rfl, by simp [Expr.mentions]⟩
  | some declaration =>
      refine ⟨rfl, fun mention membership => ⟨written, ?_⟩⟩
      rw [List.mem_singleton.mp membership, found]

end Read

mutual

/-- What the reader mentions is what stands in the tree that it returns. -/
theorem agrees_readElement (outermost : Bool) (role : Role) (element : Markup.Element) :
    Read.Agrees declaration? role (readElement declaration? outermost role element) := by
  cases element with
  | mk name attributes children text =>
    unfold readElement
    apply Read.Agrees.ite
    · cases children with
      | nil => exact Read.agrees_absent
      | cons head arguments =>
        cases found : Operator.ofElement? head.name with
        | none =>
          simp only [found]
          exact Read.agrees_absent
        | some operator =>
          simp only [found]
          exact agrees_readArguments _ _ role arguments
            fun role => childRole_applied outermost role (ofElement?_ne_bvar found)
    apply Read.Agrees.ite
    · exact agrees_readArguments _ _ role children fun _ => rfl
    apply Read.Agrees.ite
    · exact agrees_readPair _ _ role children rfl
    apply Read.Agrees.ite
    · exact agrees_readPair _ _ role children rfl
    apply Read.Agrees.ite
    · exact agrees_readFirst _ role children rfl
    apply Read.Agrees.ite
    · exact agrees_readFirst _ role children rfl
    apply Read.Agrees.ite
    · exact agrees_readFirst _ role children rfl
    apply Read.Agrees.ite
    · exact Read.agrees_name role _
    apply Read.Agrees.ite
    · exact Read.agrees_of_nil rfl
    · split
      case h_1 operator _ =>
        cases operator.isConstant with
        | true => exact Read.agrees_of_nil rfl
        | false => exact Read.agrees_absent
      case h_2 => exact Read.agrees_absent

theorem agrees_readArguments (operator : Operator) (role outer : Role)
    (elements : List Markup.Element) (below : ∀ outer, childRole operator outer = role) :
    Read.Agrees declaration? outer (readArguments declaration? operator role elements) := by
  match elements with
  | [] => exact .apply (below outer) Read.agrees_absent Read.agrees_absent
  | [only] =>
    exact .apply (below outer) (agrees_readElement false role only) Read.agrees_absent
  | [one, two] =>
    exact .apply (below outer) (agrees_readElement false role one)
      (agrees_readElement false role two)
  | one :: two :: three :: rest =>
    exact .apply (below outer) (agrees_readElement false role one)
      (agrees_readArguments operator role role (two :: three :: rest) below)

theorem agrees_readPair (operator : Operator) (role outer : Role)
    (elements : List Markup.Element) (below : childRole operator outer = role) :
    Read.Agrees declaration? outer (readPair declaration? operator role elements) := by
  match elements with
  | [] => exact .apply below Read.agrees_absent Read.agrees_absent
  | [only] => exact .apply below (agrees_readElement false role only) Read.agrees_absent
  | one :: two :: _ =>
    exact .apply below (agrees_readElement false role one) (agrees_readElement false role two)

theorem agrees_readFirst (operator : Operator) (outer : Role)
    (elements : List Markup.Element) (below : childRole operator outer = .plain) :
    Read.Agrees declaration? outer (readFirst declaration? operator elements) := by
  match elements with
  | [] => exact .apply below Read.agrees_absent Read.agrees_absent
  | one :: _ => exact .apply below (agrees_readElement false .plain one) Read.agrees_absent

end

namespace Expr

/-! ## Findings -/

/-- The role in which an expression stands by the operators above it. -/
def roleBelow : List (Operator × Expr) → Role
  | [] => .plain
  | (operator, _) :: above => childRole operator (roleBelow above)

/-- What a mention means about a derivative. -/
def Finding.ofMention? : Role × Nat → Option Finding
  | (.differentiated, declaration) => some (.state declaration)
  | (.bound, declaration) => some (.integrationVariable declaration)
  | (.plain, _) => none

theorem childRole_eq_differentiated {operator : Operator} {role : Role}
    (differentiated : childRole operator role = .differentiated) : operator = .diff := by
  unfold childRole boundRole argumentRole at differentiated
  split at differentiated
  · split at differentiated <;> cases differentiated
  · split at differentiated
    case isTrue equal => exact eq_of_beq equal
    case isFalse => cases differentiated

theorem childRole_eq_bound {operator : Operator} {role : Role}
    (bound : childRole operator role = .bound) : operator = .bvar ∧ role = .differentiated := by
  unfold childRole boundRole argumentRole at bound
  split at bound
  case isTrue equal =>
    split at bound
    case isTrue differentiated => exact ⟨eq_of_beq equal, eq_of_beq differentiated⟩
    case isFalse => cases bound
  case isFalse => split at bound <;> cases bound

theorem findingsBelow_apply (above : List (Operator × Expr)) (operator : Operator)
    (left right : Expr) :
    (apply operator left right).findingsBelow above =
      left.findingsBelow ((operator, right) :: above) ++
        right.findingsBelow ((operator, right) :: above) :=
  rfl

/-- A reference in a derivative is found. -/
theorem findingsBelow_reference {declaration : Nat} {above : List (Operator × Expr)}
    {finding : Finding}
    (means : Finding.ofMention? (roleBelow above, declaration) = some finding) :
    finding ∈ (reference declaration).findingsBelow above := by
  match above with
  | [] => cases means
  | (operator, right) :: rest =>
      cases role : childRole operator (roleBelow rest) with
      | plain =>
          rw [roleBelow, role] at means
          cases means
      | differentiated =>
          rw [roleBelow, role] at means
          obtain rfl := childRole_eq_differentiated role
          obtain rfl := Option.some.inj means
          exact List.mem_singleton_self _
      | bound =>
          rw [roleBelow, role] at means
          obtain ⟨rfl, parent⟩ := childRole_eq_bound role
          obtain rfl := Option.some.inj means
          match rest with
          | [] => cases parent
          | (_, _) :: _ =>
              obtain rfl := childRole_eq_differentiated parent
              exact List.mem_singleton_self _

/-- Every mention in a derivative is found. -/
theorem mem_findingsBelow {expr : Expr} (above : List (Operator × Expr)) {mention : Role × Nat}
    {finding : Finding} (mentioned : mention ∈ expr.mentions (roleBelow above))
    (means : Finding.ofMention? mention = some finding) : finding ∈ expr.findingsBelow above := by
  induction expr generalizing above with
  | absent => cases mentioned
  | number => cases mentioned
  | reference declaration =>
      obtain rfl := List.mem_singleton.mp mentioned
      exact findingsBelow_reference means
  | apply operator left right leftHypothesis rightHypothesis =>
      rw [findingsBelow_apply, List.mem_append]
      rcases List.mem_append.mp mentioned with inLeft | inRight
      · exact Or.inl (leftHypothesis ((operator, right) :: above) inLeft)
      · exact Or.inr (rightHypothesis ((operator, right) :: above) inRight)

/-- What is found, other than a degree, is a mention in a derivative. -/
theorem exists_mention_of_mem_findingsBelow {expr : Expr} (above : List (Operator × Expr))
    {finding : Finding} (membership : finding ∈ expr.findingsBelow above)
    (firstOrder : ∀ declaration, finding ≠ .notFirstOrder declaration) :
    ∃ mention ∈ expr.mentions (roleBelow above), Finding.ofMention? mention = some finding := by
  induction expr generalizing above with
  | absent => cases membership
  | number written =>
      unfold findingsBelow at membership
      split at membership
      · split at membership
        · cases membership
        · exact absurd (List.mem_singleton.mp membership) (firstOrder _)
      · cases membership
  | reference declaration =>
      unfold findingsBelow at membership
      split at membership
      · obtain rfl := List.mem_singleton.mp membership
        exact ⟨_, List.mem_singleton_self _, rfl⟩
      · obtain rfl := List.mem_singleton.mp membership
        exact ⟨_, List.mem_singleton_self _, rfl⟩
      · cases membership
  | apply operator left right leftHypothesis rightHypothesis =>
      rw [findingsBelow_apply, List.mem_append] at membership
      rcases membership with inLeft | inRight
      · obtain ⟨mention, mentioned, means⟩ := leftHypothesis ((operator, right) :: above) inLeft
        exact ⟨mention, List.mem_append_left _ mentioned, means⟩
      · obtain ⟨mention, mentioned, means⟩ := rightHypothesis ((operator, right) :: above) inRight
        exact ⟨mention, List.mem_append_right _ mentioned, means⟩

/-! ## Scaling -/

theorem mentions_scaled (factor : Option Factor) (expr : Expr) :
    (scaled factor expr).mentions .plain = expr.mentions .plain := by
  cases factor <;> rfl

theorem mentions_unscaled (factor : Option Factor) (left right : Expr) (role : Role) :
    (unscaled factor (apply .diff left right)).mentions role =
      (apply .diff left right).mentions role := by
  cases factor <;> rfl

/-- Scaling keeps all mentions, as long as the references inside derivatives are kept. -/
theorem mentions_rescale (rule : FactorRule) (kept : Bool) (expr : Expr) (role : Role)
    (inside : role ≠ .plain → kept = true) :
    (expr.rescale rule kept).mentions role = expr.mentions role := by
  fun_induction rescale rule kept expr generalizing role with
  | case1 => rfl
  | case2 => rfl
  | case3 => rfl
  | case4 kept declaration notKept =>
      have plain : role = .plain := by
        by_contra other
        exact notKept (inside other)
      subst plain
      exact mentions_scaled _ _
  | case5 kept left right other rate leftHypothesis rightHypothesis otherHypothesis =>
      have sameLeft := leftHypothesis .differentiated fun _ => rfl
      have sameRight := rightHypothesis .differentiated fun _ => rfl
      have sameOther := otherHypothesis .plain fun impossible => absurd rfl impossible
      have below : ∀ role, childRole .assignment role = .plain := fun _ => rfl
      have inRate : ∀ role, childRole .diff role = .differentiated := fun _ => rfl
      simp only [rate, mentions, below, inRate, sameLeft, sameRight, mentions_scaled, sameOther]
  | case6 kept left right rate leftHypothesis rightHypothesis =>
      have sameLeft := leftHypothesis .differentiated fun _ => rfl
      have sameRight := rightHypothesis .differentiated fun _ => rfl
      have inRate : childRole .diff role = .differentiated := rfl
      simp only [rate, mentions_unscaled, mentions, inRate, sameLeft, sameRight]
  | case7 kept operator left right _ notDiff bound leftHypothesis rightHypothesis =>
      have below : childRole operator role ≠ .plain → bound = true := by
        intro other
        by_contra notBound
        have plain : childRole operator role = .plain := by
          simp [childRole, argumentRole, show operator ≠ .bvar by simpa [bound] using notBound,
            show operator ≠ .diff from notDiff]
        exact other plain
      simp only [mentions, leftHypothesis _ below, rightHypothesis _ below]

/-- A rate whose declarations have no factor has none. -/
theorem rateFactor_eq_none {rule : FactorRule} {left right : Expr}
    (unscaled : ∀ mention ∈ (apply .diff left right).mentions .plain, rule mention.2 = none) :
    rateFactor rule (apply .diff left right) = none := by
  unfold rateFactor
  split
  case h_1 bound _ _ equal =>
    cases equal
    exact unscaled (_, bound) (List.mem_append_left _ (List.mem_append_left _ List.mem_cons_self))
  case h_2 => rfl

/-- An expression whose declarations have no factor is kept as it is. -/
theorem rescale_eq_self {rule : FactorRule} {kept : Bool} {expr : Expr} (role : Role)
    (unscaled : ∀ mention ∈ expr.mentions role, rule mention.2 = none) :
    expr.rescale rule kept = expr := by
  fun_induction rescale rule kept expr generalizing role with
  | case1 => rfl
  | case2 => rfl
  | case3 => rfl
  | case4 kept declaration =>
      have none : rule declaration = none := unscaled (role, declaration) (by simp [mentions])
      simp [scaled, none]
  | case5 kept left right other rate leftHypothesis rightHypothesis otherHypothesis =>
      have inRate : ∀ mention ∈ (apply .diff left right).mentions .plain, rule mention.2 = none :=
        fun mention inRate => unscaled mention (List.mem_append_left _ inRate)
      have sameLeft := leftHypothesis .differentiated fun mention inLeft =>
        inRate mention (List.mem_append_left _ inLeft)
      have sameRight := rightHypothesis .differentiated fun mention inRight =>
        inRate mention (List.mem_append_right _ inRight)
      have sameOther := otherHypothesis .plain fun mention inOther =>
        unscaled mention (List.mem_append_right _ inOther)
      simp only [rate, sameLeft, sameRight, sameOther, rateFactor_eq_none inRate, scaled]
  | case6 kept left right rate leftHypothesis rightHypothesis =>
      have sameLeft := leftHypothesis .differentiated fun mention inLeft =>
        unscaled mention (List.mem_append_left _ inLeft)
      have sameRight := rightHypothesis .differentiated fun mention inRight =>
        unscaled mention (List.mem_append_right _ inRight)
      simp only [rate, sameLeft, sameRight, rateFactor_eq_none unscaled, Expr.unscaled]
  | case7 kept operator left right _ _ bound leftHypothesis rightHypothesis =>
      have sameLeft := leftHypothesis _ fun mention inLeft =>
        unscaled mention (List.mem_append_left _ inLeft)
      have sameRight := rightHypothesis _ fun mention inRight =>
        unscaled mention (List.mem_append_right _ inRight)
      rw [sameLeft, sameRight]

/-- Only a reference without a factor, or one that is kept, is a reference after scaling. -/
theorem rescale_eq_reference {rule : FactorRule} {kept : Bool} {expr : Expr} {declaration : Nat} :
    expr.rescale rule kept = reference declaration ↔
      expr = reference declaration ∧ (kept = false → rule declaration = none) := by
  fun_cases rescale rule kept expr with
  | case1 => simp
  | case2 => simp
  | case3 => simp_all
  | case4 other notKept =>
      cases factor : rule other with
      | none =>
          simp only [scaled, reference.injEq]
          grind
      | some => simp only [scaled, times, reduceCtorEq, false_iff]; grind
  | case5 => simp
  | case6 left right rate => cases rateFactor rule rate <;> simp [unscaled, times, rate]
  | case7 => simp

end Expr

end ComponentModel.Equation
