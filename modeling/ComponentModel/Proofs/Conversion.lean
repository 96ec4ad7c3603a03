import ComponentModel.Proofs.Computation
import ComponentModel.Proofs.Values

/-!
# What scaled equations mean

A class of variables is kept in the units of one of its declarations, and the rate of a state in
these units by those in which the variable of integration is kept. A scaled equation means of what
is kept what the equation that was read means of its own declarations, as far as values are
concerned. A rate is only converted for the units of the variable of integration, not for those of
the differentiated variable.
-/

namespace ComponentModel

open Decimal (Numeral literalValue digitsValue)

variable {K : Type*} [Field K]

namespace Equation

/-- What is meant by the parts of an equation. Operators other than products and equality are left
open, and so are references in derivatives of anything else than a variable. -/
structure Reading (K : Type*) where
  value : Nat → K
  /-- The rate of a variable by another one, which comes first. -/
  rate : Nat → Nat → K
  operator : Operator → K → K → K
  bare : Nat → K
  absent : K

/-- The reading in which values are multiplied by the factors of their declarations, and rates by
those of two declarations. -/
def Reading.convert (reading : Reading K) (factor : Nat → K) (multiplier : Nat → Nat → K) :
    Reading K :=
  { reading with
    value := fun declaration => factor declaration * reading.value declaration
    rate := fun integration declaration =>
      multiplier integration declaration * reading.rate integration declaration }

namespace Expr

/-- The declaration of an expression that is a reference. -/
def reference? : Expr → Option Nat
  | reference declaration => some declaration
  | _ => none

/-- The variable that a derivative is by, as its first child names it. -/
def bound? : Expr → Option Nat
  | apply .bvar left _ | apply .diff left _ => left.reference?
  | _ => none

/-- The variables of a derivative by its children: the one that it is by, and the differentiated
one. -/
def derivative? (left right : Expr) : Option (Nat × Nat) :=
  left.bound?.bind fun integration =>
    right.reference?.map fun declaration => (integration, declaration)

end Expr

section

variable [DecidableEq K]

/-- What an operator makes of the meanings of its children. -/
def Reading.combine (reading : Reading K) (operator : Operator) (left right : K) : K :=
  match operator with
  | .times => left * right
  | .assignment => truthValue (left = right)
  | operator => reading.operator operator left right

namespace Expr

/-- The meaning of an expression. References directly inside a derivative or a bound variable are
`kept`. -/
def meaning (reading : Reading K) : (kept : Bool) → Expr → K
  | _, absent => reading.absent
  | kept, reference declaration =>
      if kept then reading.bare declaration else reading.value declaration
  | _, number written => literalValue K written
  | _, apply operator left right =>
      match if operator == .diff then derivative? left right else none with
      | some (integration, declaration) => reading.rate integration declaration
      | none =>
          let inside := operator == .diff || operator == .bvar
          reading.combine operator (left.meaning reading inside) (right.meaning reading inside)

theorem meaning_diff (reading : Reading K) (kept : Bool) (left right : Expr) :
    (apply .diff left right).meaning reading kept =
      match derivative? left right with
      | some (integration, declaration) => reading.rate integration declaration
      | none =>
          reading.combine .diff (left.meaning reading true) (right.meaning reading true) := rfl

theorem meaning_apply (reading : Reading K) (kept : Bool) {operator : Operator} (left right : Expr)
    (notDiff : operator ≠ .diff) :
    (apply operator left right).meaning reading kept =
      reading.combine operator (left.meaning reading (operator == .bvar))
        (right.meaning reading (operator == .bvar)) := by
  have isFalse : (operator == .diff) = false := beq_false_of_ne notDiff
  simp [meaning, isFalse]

theorem meaning_assignment (reading : Reading K) (kept : Bool) (left right : Expr) :
    (apply .assignment left right).meaning reading kept =
      truthValue (left.meaning reading false = right.meaning reading false) := rfl

theorem meaning_times (reading : Reading K) (kept : Bool) (written : String) (expr : Expr) :
    (times written expr).meaning reading kept =
      literalValue K written * expr.meaning reading false := rfl

end Expr

end

namespace Expr

/-! ## Scaling -/

variable {rule : FactorRule}

@[simp] theorem reference?_reference (declaration : Nat) :
    (reference declaration).reference? = some declaration := rfl

@[simp] theorem reference?_number (written : String) : (number written).reference? = none := rfl

theorem reference?_eq_some {expr : Expr} {declaration : Nat} :
    expr.reference? = some declaration ↔ expr = reference declaration := by
  cases expr <;> simp [reference?]

/-- What is no reference is none after scaling. -/
theorem reference?_rescale (rule : FactorRule) (expr : Expr) :
    (expr.rescale rule true).reference? = expr.reference? := by
  ext declaration
  rw [reference?_eq_some, reference?_eq_some, rescale_eq_reference]
  simp

/-- The factor of a rate by the children of the derivative. -/
theorem rateFactor_apply (rule : FactorRule) (operator : Operator) (left degree right : Expr) :
    rateFactor rule (apply .diff (apply operator left degree) right) =
      left.reference?.bind fun integration => right.reference?.bind fun _ => rule integration := by
  cases left <;> cases right <;> rfl

/-- What stands in the place of a bound variable names the same variable after scaling. -/
theorem bound?_rescale (rule : FactorRule) (left : Expr) :
    (left.rescale rule true).bound? = left.bound? := by
  fun_cases rescale rule true left with
  | case1 => rfl
  | case2 => rfl
  | case3 => rfl
  | case4 _ notKept => exact absurd rfl notKept
  | case5 => rfl
  | case6 left right rate =>
      have same := reference?_rescale rule left
      cases isReference : left.reference? with
      | some integration =>
          obtain rfl := reference?_eq_some.mp isReference
          simp [rate, rescale, rateFactor, unscaled, bound?]
      | none =>
          rw [isReference] at same
          cases rateFactor rule rate <;> simp [unscaled, times, bound?, rate, same, isReference]
  | case7 operator left right _ notDiff bound =>
      cases operator
      case bvar => simp [bound?, bound, reference?_rescale]
      all_goals first | rfl | exact absurd rfl notDiff

/-- Scaling finds the variables of a derivative where they were. -/
theorem derivative?_rescale (rule : FactorRule) (left right : Expr) :
    derivative? (left.rescale rule true) (right.rescale rule true) = derivative? left right := by
  rw [derivative?, derivative?, bound?_rescale, reference?_rescale]

/-- The factor of a rate is that of the variable that the derivative is by. -/
theorem rateFactor_rescale (rule : FactorRule) (left right : Expr) :
    rateFactor rule (apply .diff (left.rescale rule true) (right.rescale rule true)) =
      (derivative? left right).bind fun pair => rule pair.1 := by
  have sameRight := reference?_rescale rule right
  fun_cases rescale rule true left with
  | case1 => rfl
  | case2 => rfl
  | case3 => rfl
  | case4 _ notKept => exact absurd rfl notKept
  | case5 => rfl
  | case6 left inner rate =>
      have same := reference?_rescale rule left
      cases isReference : left.reference? with
      | some integration =>
          obtain rfl := reference?_eq_some.mp isReference
          have bare : unscaled (rateFactor rule rate) rate =
              apply .diff (reference integration) (inner.rescale rule true) := by
            simp [rate, rescale, rateFactor, unscaled]
          rw [bare, rateFactor_apply, sameRight, derivative?, bound?]
          cases right.reference? <;> rfl
      | none =>
          rw [isReference] at same
          cases rateFactor rule rate <;>
            simp [unscaled, times, rate, rateFactor_apply, same, derivative?, bound?, isReference]
  | case7 operator left degree _ notDiff bound =>
      rw [rateFactor_apply, sameRight]
      by_cases isBound : operator = .bvar
      · subst isBound
        have same : (left.rescale rule bound).reference? = left.reference? :=
          reference?_rescale rule left
        rw [same, derivative?, bound?]
        cases left.reference? <;> cases right.reference? <;> rfl
      · -- A reference that has not been scaled has no factor.
        have unbound : (apply operator left degree).bound? = none := by
          unfold bound?
          split <;> simp_all
        have notBound : bound = false := by simpa [bound] using isBound
        rw [derivative?, unbound, notBound]
        cases isReference : (left.rescale rule false).reference? with
        | none => rfl
        | some integration =>
            have unscaled := (rescale_eq_reference.mp (reference?_eq_some.mp isReference)).2 rfl
            cases right.reference? <;> simp [unscaled]

/-- Factors that are written as they are. -/
structure IsWritten (rule : FactorRule) (factor : Nat → K) : Prop where
  nonzero : ∀ declaration, factor declaration ≠ 0
  none : ∀ declaration, rule declaration = none → factor declaration = 1
  some : ∀ declaration written, rule declaration = some written →
    literalValue K written.text = factor declaration ∧
      literalValue K written.reciprocal = (factor declaration)⁻¹

/-- What the rate of a derivative is divided by: the factor of the variable of integration. -/
def divisor (factor : Nat → K) (left right : Expr) : K :=
  match derivative? left right with
  | some (integration, _) => factor integration
  | none => 1

theorem divisor_ne_zero {factor : Nat → K} (written : IsWritten rule factor) (left right : Expr) :
    divisor factor left right ≠ 0 := by
  unfold divisor
  split
  · exact written.nonzero _
  · exact one_ne_zero

variable [DecidableEq K] {factor : Nat → K}

theorem meaning_scaled (written : IsWritten rule factor) (reading : Reading K) (declaration : Nat)
    (expr : Expr) :
    (scaled (rule declaration) expr).meaning reading false =
      factor declaration * expr.meaning reading false := by
  cases scaling : rule declaration with
  | none => simp [scaled, written.none declaration scaling]
  | some factors => rw [scaled, meaning_times, (written.some declaration factors scaling).1]

theorem meaning_unscaled (written : IsWritten rule factor) (reading : Reading K) (kept : Bool)
    (declaration : Nat) (left right : Expr) :
    (unscaled (rule declaration) (apply .diff left right)).meaning reading kept =
      (factor declaration)⁻¹ * (apply .diff left right).meaning reading kept := by
  cases scaling : rule declaration with
  | none => simp [unscaled, written.none declaration scaling]
  | some factors =>
      rw [unscaled, meaning_times, (written.some declaration factors scaling).2]
      rfl

section

variable (reading : Reading K) (kept : Bool) (left right : Expr)

/-- The other side of an equation for a rate is multiplied by the divisor of the rate. -/
theorem meaning_scaled_side (written : IsWritten rule factor) (expr : Expr) :
    (scaled (rateFactor rule (apply .diff (left.rescale rule true) (right.rescale rule true)))
        expr).meaning reading false = divisor factor left right * expr.meaning reading false := by
  rw [rateFactor_rescale, divisor]
  cases derivative? left right with
  | none => simp [scaled]
  | some pair => exact meaning_scaled written reading pair.1 expr

/-- A rate that is used as a value is divided by its divisor. -/
theorem meaning_unscaled_rate (written : IsWritten rule factor) :
    (unscaled (rateFactor rule (apply .diff (left.rescale rule true) (right.rescale rule true)))
        (apply .diff (left.rescale rule true) (right.rescale rule true))).meaning reading kept =
      (divisor factor left right)⁻¹ *
        (apply .diff (left.rescale rule true) (right.rescale rule true)).meaning reading kept := by
  rw [rateFactor_rescale, divisor]
  cases derivative? left right with
  | none => simp [unscaled]
  | some pair => exact meaning_unscaled written reading kept pair.1 _ _

/-- The rate that an equation means is what is kept, divided by the divisor. -/
theorem meaning_convert_rate
    (leftMeans : (left.rescale rule true).meaning reading true =
      left.meaning (reading.convert factor fun integration _ => (factor integration)⁻¹) true)
    (rightMeans : (right.rescale rule true).meaning reading true =
      right.meaning (reading.convert factor fun integration _ => (factor integration)⁻¹) true) :
    (apply .diff left right).meaning
        (reading.convert factor fun integration _ => (factor integration)⁻¹) kept =
      (divisor factor left right)⁻¹ *
        (apply .diff (left.rescale rule true) (right.rescale rule true)).meaning reading kept := by
  rw [meaning_diff, meaning_diff, derivative?_rescale, divisor]
  cases derivative? left right with
  | none =>
      simp only [inv_one, one_mul, leftMeans, rightMeans]
      rfl
  | some pair => rfl

end

/-- Only the rates of variables that are differentiated in an expression count for its meaning. -/
theorem meaning_convert_congr (reading : Reading K) (factor : Nat → K)
    {one other : Nat → Nat → K} (kept : Bool) (expr : Expr) (role : Role)
    (same : ∀ integration declaration, (.differentiated, declaration) ∈ expr.mentions role →
      one integration declaration = other integration declaration) :
    expr.meaning (reading.convert factor one) kept =
      expr.meaning (reading.convert factor other) kept := by
  induction expr generalizing kept role with
  | absent => rfl
  | reference => rfl
  | number => rfl
  | apply operator left right leftHypothesis rightHypothesis =>
      have leftMeans (kept : Bool) := leftHypothesis kept (childRole operator role)
        fun integration declaration inLeft =>
          same integration declaration (List.mem_append_left _ inLeft)
      have rightMeans (kept : Bool) := rightHypothesis kept (childRole operator role)
        fun integration declaration inRight =>
          same integration declaration (List.mem_append_right _ inRight)
      by_cases isRate : operator = .diff
      · subst isRate
        rw [meaning_diff, meaning_diff]
        cases involved : derivative? left right with
        | none => exact congrArg₂ _ (leftMeans true) (rightMeans true)
        | some pair =>
            obtain ⟨integration, -, isPair⟩ := Option.bind_eq_some_iff.mp involved
            obtain ⟨declaration, isReference, rfl⟩ := Option.map_eq_some_iff.mp isPair
            obtain rfl := reference?_eq_some.mp isReference
            have equal := same integration declaration (List.mem_append_right _ (by
              exact List.mem_singleton_self _))
            simp only [Reading.convert, equal]
      · rw [meaning_apply _ _ _ _ isRate, meaning_apply _ _ _ _ isRate]
        exact congrArg₂ _ (leftMeans _) (rightMeans _)

/-- A scaled expression means of what is kept what the expression means of converted values, with
rates that are divided by the factor of the variable of integration. -/
theorem meaning_rescale (written : IsWritten rule factor) (reading : Reading K) (kept : Bool)
    (expr : Expr) :
    (expr.rescale rule kept).meaning reading kept =
      expr.meaning (reading.convert factor fun integration _ => (factor integration)⁻¹) kept := by
  fun_induction rescale rule kept expr with
  | case1 => rfl
  | case2 => rfl
  | case3 => rfl
  | case4 kept declaration notKept =>
      rw [Bool.not_eq_true] at notKept
      subst notKept
      exact meaning_scaled written reading declaration (reference declaration)
  | case5 kept left right other rate leftHypothesis rightHypothesis otherHypothesis =>
      rw [meaning_assignment, meaning_assignment,
        meaning_convert_rate reading false left right leftHypothesis rightHypothesis,
        meaning_scaled_side reading left right written, otherHypothesis]
      have nonzero := inv_ne_zero (divisor_ne_zero written left right)
      congr 1
      rw [← inv_inv (divisor factor left right), eq_inv_mul_iff_mul_eq₀ nonzero, inv_inv]
  | case6 kept left right rate leftHypothesis rightHypothesis =>
      rw [meaning_convert_rate reading kept left right leftHypothesis rightHypothesis]
      exact meaning_unscaled_rate reading kept left right written
  | case7 kept operator left right _ notDiff bound leftHypothesis rightHypothesis =>
      rw [meaning_apply _ _ _ _ notDiff, meaning_apply _ _ _ _ notDiff]
      exact congrArg₂ _ leftHypothesis rightHypothesis

/-- The rate of a declaration by another one. -/
def rate (integration : Nat) (degree : Expr) (declaration : Nat) : Expr :=
  apply .diff (apply .bvar (reference integration) degree) (reference declaration)

section

variable {integration declaration : Nat} {degree : Expr} (written : IsWritten rule factor)
  (reading : Reading K)

include written

/-- The scaled rate is divided by the factor of the variable of integration. -/
theorem meaning_rescale_rate :
    ((rate integration degree declaration).rescale rule false).meaning reading false =
      (factor integration)⁻¹ * reading.rate integration declaration :=
  meaning_rescale written reading false _

/-- The other side of a scaled equation for a rate is multiplied by the factor of the variable of
integration. -/
theorem meaning_rescale_rate_assignment (other : Expr) :
    ((apply .assignment (rate integration degree declaration) other).rescale rule false).meaning
        reading false =
      truthValue (reading.rate integration declaration =
        factor integration * (other.rescale rule false).meaning reading false) := by
  rw [← meaning_scaled written reading integration (other.rescale rule false)]
  rfl

end

end Expr

end Equation

/-! ## Reported equations -/

namespace Analysis

open Equation (Expr Reading Role)
open Equation.Expr (IsWritten)

namespace AnalysedModel

/-- The cell that a declaration is bound to. -/
def cell? (analysed : AnalysedModel) (declaration : Nat) : Option Cell :=
  (analysed.binding? declaration).map fun binding => .of binding.1 binding.2

/-- What is kept in cells, read as the values and the rates of declarations. -/
def stored (analysed : AnalysedModel) (value rate : Option Cell → K) (reading : Reading K) :
    Reading K :=
  { reading with
    value := fun declaration => value (analysed.cell? declaration)
    rate := fun _ declaration => rate (analysed.cell? declaration) }

/-- The factor from the units in which a class is kept to those of one of its declarations. -/
def factor (analysed : AnalysedModel) (magnitude : String → K) (declaration : Nat) : K :=
  match (analysed.cell? declaration).bind analysed.occupant?,
      analysed.declarations[declaration]? with
  | some found, some declared => magnitude found.declared.units / magnitude declared.units
  | _, _ => 1

/-- What is kept, converted to the units of the declarations that are mentioned: a value by the
factor of its declaration, and a rate by that of the differentiated declaration over that of the
variable of integration. -/
def asDeclared (analysed : AnalysedModel) (magnitude : String → K) (reading : Reading K) :
    Reading K :=
  reading.convert (analysed.factor magnitude) fun integration declaration =>
    analysed.factor magnitude declaration / analysed.factor magnitude integration

/-- What is kept, converted as scaling does it: the factor of a differentiated declaration is left
out. -/
def asScaled (analysed : AnalysedModel) (magnitude : String → K) (reading : Reading K) :
    Reading K :=
  reading.convert (analysed.factor magnitude) fun integration _ =>
    (analysed.factor magnitude integration)⁻¹

end AnalysedModel

namespace Stage

variable {model : Model} {magnitude : String → K} {declaration record : Nat}

/-- The factors of a model are written as the exact quotients of magnitudes of units. -/
structure IsExact (model : Model) (magnitude : String → K) : Prop where
  nonzero : ∀ units, magnitude units ≠ 0
  none : ∀ declaration < (index model).declarations.length, rule model declaration = none →
    (analyse model).factor magnitude declaration = 1
  some : ∀ declaration < (index model).declarations.length, ∀ written,
    rule model declaration = some written →
    literalValue K written.text = (analyse model).factor magnitude declaration ∧
      literalValue K written.reciprocal = ((analyse model).factor magnitude declaration)⁻¹

theorem declarations_analyse (valid : (analyse model).type.isValid) :
    (analyse model).declarations = (index model).declarations := by
  obtain ⟨-, -, issues, equal⟩ := analyse_eq valid
  rw [equal]
  rfl

/-- The factor of a declaration by the record of its class. -/
theorem factor_eq (valid : (analyse model).type.isValid)
    (inside : declaration < (index model).declarations.length)
    (recorded : (final model).registry.find? (index model) declaration = some record) :
    (analyse model).factor magnitude declaration =
      magnitude ((index model).declaration
          ((final model).registry.get record).declaration).units /
        magnitude ((index model).declaration declaration).units := by
  obtain ⟨found, entry⟩ := exists_entry valid (Registry.lt_of_find? recorded)
  have stands := standsFor valid inside recorded entry
  have cell : (analyse model).cell? declaration = some found.cell := by
    rw [AnalysedModel.cell?, stands.binding]
    rfl
  have declared := (isEntry entry).declared
  simp only [AnalysedModel.factor, cell, Option.bind_some, stands.entry, declarations_analyse valid,
    getElem?_declarations inside, declared]

/-- What is no declaration has no factor. -/
theorem rule_of_le (outside : (index model).declarations.length ≤ declaration) :
    rule model declaration = none := by
  have missing : (final model).registry.find? (index model) declaration = none := by
    cases found : (final model).registry.find? (index model) declaration with
    | none => rfl
    | some record =>
        have known := (belongs (Registry.lt_of_find? found)).inside
        rw [Registry.representative_of_find? found, (bounded model).classOf_lt_iff] at known
        omega
  unfold rule factorRule unitsFactor
  rw [missing]
  exact writtenFactor_one

/-- A declaration in other units than the reported declaration of its class has the factor between
these units, if it can be told. -/
theorem rule_of_ne {record : Nat} {units : Units.Registry}
    (recorded : (final model).registry.find? (index model) declaration = some record)
    (known : (Units.Registry.ofDefinitions model.units).toOption = some units)
    (other : ((index model).declaration declaration).units ≠
      ((index model).declaration ((final model).registry.get record).declaration).units) :
    rule model declaration =
      (units.scalingFactor ((index model).declaration declaration).units
        ((index model).declaration ((final model).registry.get record).declaration).units).toOption.bind
          writtenFactor := by
  unfold rule factorRule unitsFactor
  rw [recorded, known]
  simp only [beq_eq_false_iff_ne.mpr other, Bool.false_eq_true, if_false]
  split
  case h_1 told =>
    rw [told]
    rfl
  case h_2 untold =>
    rw [untold]
    exact writtenFactor_one

theorem factor_of_le (valid : (analyse model).type.isValid)
    (outside : (index model).declarations.length ≤ declaration) :
    (analyse model).factor magnitude declaration = 1 := by
  rw [AnalysedModel.factor, declarations_analyse valid, List.getElem?_eq_none outside]
  cases ((analyse model).cell? declaration).bind (analyse model).occupant? <;> rfl

/-- Factors are exact if those of all declarations but one are one, and that one's is written as it
is. -/
theorem isExact_of_only {only : Nat} {written : Equation.Factor} {value : K}
    (nonzero : ∀ units, magnitude units ≠ 0)
    (factor : ∀ declaration < (index model).declarations.length,
      (analyse model).factor magnitude declaration = if declaration = only then value else 1)
    (scaled : rule model only = some written)
    (exact : literalValue K written.text = value ∧ literalValue K written.reciprocal = value⁻¹)
    (unscaled : ∀ declaration < (index model).declarations.length, declaration ≠ only →
      rule model declaration = none) : IsExact model magnitude where
  nonzero := nonzero
  none := by
    intro declaration inside none
    rw [factor declaration inside]
    refine if_neg fun isOnly => ?_
    rw [isOnly, scaled] at none
    cases none
  some := by
    intro declaration inside other some
    by_cases isOnly : declaration = only
    · subst isOnly
      obtain rfl := Option.some.inj (scaled.symm.trans some)
      rw [factor declaration inside, if_pos rfl]
      exact exact
    · rw [unscaled declaration inside isOnly] at some
      cases some

/-- Exact factors are written as they are. -/
theorem isWritten (valid : (analyse model).type.isValid) (exact : IsExact model magnitude) :
    IsWritten (rule model) ((analyse model).factor magnitude) where
  nonzero := by
    intro declaration
    unfold AnalysedModel.factor
    split
    · exact div_ne_zero (exact.nonzero _) (exact.nonzero _)
    · exact one_ne_zero
  none := by
    intro declaration unscaled
    by_cases inside : declaration < (index model).declarations.length
    · exact exact.none declaration inside unscaled
    · exact factor_of_le valid (Nat.le_of_not_lt inside)
  some := by
    intro declaration written scaled
    by_cases inside : declaration < (index model).declarations.length
    · exact exact.some declaration inside written scaled
    · rw [rule_of_le (Nat.le_of_not_lt inside)] at scaled
      cases scaled

section

variable [DecidableEq K] {place number : Nat}

/-- What a reported equation means of what is kept. -/
theorem exists_meaning (valid : (analyse model).type.isValid) (exact : IsExact model magnitude)
    (listed : (reported model)[place]? = some number) :
    ∃ source result, (built model)[number]? = some source ∧
      (analyse model).equations[place]? = some result ∧
      ∀ kept : Reading K, result.expr.meaning kept false =
        source.expr.meaning ((analyse model).asScaled magnitude kept) false := by
  obtain ⟨_, source, _, _, result, reportedAt⟩ := exists_reportedAt_of_mem valid listed
  refine ⟨source, result, reportedAt.ordered.foundSource, reportedAt.found, fun kept => ?_⟩
  rw [reportedAt.expr]
  exact Expr.meaning_rescale (isWritten valid exact) kept false source.expr

/-- The equations of a model that can be solved, with exact factors, mean of what is kept what the
equations that were read mean of values in the units of their declarations, and of rates that are
divided by the factor of the variable of integration. On the left-hand side, the other side is
multiplied by this factor instead. The factor of the differentiated variable is left out: rates are
read in the units of the declarations exactly as far as this factor is one. -/
theorem rates_converted_for_integration (model : Model) (magnitude : String → K)
    (valid : (analyse model).type.isValid) (exact : IsExact model magnitude)
    (reading : Reading K) (value rate : Option Cell → K) :
    let kept := (analyse model).stored value rate reading
    let factor := (analyse model).factor magnitude
    (∀ (place : Nat) (result : AnalysedEquation),
      (analyse model).equations[place]? = some result →
      ∃ number source, (reported model)[place]? = some number ∧
        (built model)[number]? = some source ∧
        result.expr.meaning kept false =
          source.expr.meaning ((analyse model).asScaled magnitude kept) false ∧
        ((∀ declaration, (.differentiated, declaration) ∈ source.expr.mentions .plain →
            factor declaration = 1) →
          result.expr.meaning kept false =
            source.expr.meaning ((analyse model).asDeclared magnitude kept) false)) ∧
    ∀ (integration declaration : Nat) (degree : Expr),
      ((Expr.rate integration degree declaration).rescale (rule model) false).meaning kept false =
          (factor integration)⁻¹ * rate ((analyse model).cell? declaration) ∧
        (∀ other : Expr,
          ((Expr.apply .assignment (.rate integration degree declaration) other).rescale
              (rule model) false).meaning kept false =
            truthValue (rate ((analyse model).cell? declaration) =
              factor integration * (other.rescale (rule model) false).meaning kept false)) ∧
        ((factor integration)⁻¹ = factor declaration / factor integration ↔
          factor declaration = 1) := by
  intro kept factor
  have written := isWritten valid exact
  refine ⟨fun place result reported => ?_, fun integration declaration degree =>
    ⟨Expr.meaning_rescale_rate written kept, fun other =>
      Expr.meaning_rescale_rate_assignment written kept other, ?_⟩⟩
  · obtain ⟨number, _, _, _, _, reportedAt⟩ := exists_reportedAt valid reported
    obtain ⟨source, found, foundSource, again, means⟩ :=
      exists_meaning valid exact reportedAt.listed
    obtain rfl := Option.some.inj (again.symm.trans reported)
    refine ⟨number, source, reportedAt.listed, foundSource, means kept, fun ones => ?_⟩
    rw [means kept]
    refine Expr.meaning_convert_congr kept factor false source.expr .plain ?_
    intro integration declaration differentiated
    have one : (analyse model).factor magnitude declaration = 1 := ones declaration differentiated
    rw [one, one_div]
  · have nonzero := inv_ne_zero (written.nonzero integration)
    rw [div_eq_mul_inv, eq_comm, mul_eq_right₀ nonzero]

end

/-! ## A mass in grams -/

theorem declarations_weighed : (index weighed).declarations =
    [⟨"scales", "t", "second", none⟩, ⟨"scales", "x", "kilogram", some (.number 1)⟩,
     ⟨"display", "t", "second", none⟩, ⟨"display", "x", "gram", none⟩,
     ⟨"display", "y", "gram", none⟩] := by
  cbv

/-- The magnitudes of the units of the scales and of the display. -/
def masses (units : String) : ℚ :=
  if units = "gram" then 1 / 1000 else 1

theorem masses_ne_zero (units : String) : masses units ≠ 0 := by
  unfold masses
  split <;> norm_num

theorem masses_gram : masses "kilogram" / masses "gram" = 1000 := by
  rw [masses, masses, if_neg (by decide), if_pos rfl]
  norm_num

/-- The factor from kilograms to grams as it is written. -/
theorem writtenFactor_gram :
    ((⟨[]⟩ : Units.Registry).scalingFactor "gram" "kilogram").toOption.bind writtenFactor =
      some ⟨"1000", "0.001"⟩ := by
  rfl

theorem literalValue_gram :
    literalValue ℚ "1000" = 1000 ∧ literalValue ℚ "0.001" = 1000⁻¹ := by
  have whole : Numeral.ofUnsigned? "1000".toList = some ⟨false, [1, 0, 0, 0], [], 0⟩ := rfl
  have fraction : Numeral.ofUnsigned? "0.001".toList = some ⟨false, [0], [0, 0, 1], 0⟩ := rfl
  rw [literalValue, literalValue, whole, fraction]
  norm_num [Numeral.value, digitsValue]

theorem find?_weighed (inside : declaration < 5) :
    (final weighed).registry.find? (index weighed) declaration =
      [0, 1, 0, 1, 2][declaration]? := by
  rw [registry_weighed, Registry.find?, Index.classOf, classes_weighed]
  interval_cases declaration <;> rfl

/-- Only the displayed mass is read in other units than those in which it is kept. -/
theorem factor_weighed (inside : declaration < 5) :
    (analyse weighed).factor masses declaration = if declaration = 3 then 1000 else 1 := by
  have recorded := find?_weighed inside
  have declared : declaration < (index weighed).declarations.length := by
    rw [declarations_weighed]
    exact inside
  interval_cases declaration
  all_goals
    rw [factor_eq valid_weighed declared recorded, Index.declaration, Index.declaration,
      declarations_weighed, registry_weighed]
  case «3» => exact masses_gram
  all_goals exact div_self (masses_ne_zero _)

/-- The factor of the displayed mass. -/
theorem rule_weighed : rule weighed 3 = some ⟨"1000", "0.001"⟩ := by
  have units : (Units.Registry.ofDefinitions weighed.units).toOption = some ⟨[]⟩ := rfl
  rw [rule_of_ne (find?_weighed (by decide)) units]
  all_goals rw [Index.declaration, Index.declaration, declarations_weighed, registry_weighed]
  · exact writtenFactor_gram
  · decide

/-- Nothing else has a factor. -/
theorem rule_weighed_eq_none (inside : declaration < 5) (other : declaration ≠ 3) :
    rule weighed declaration = none := by
  have recorded := find?_weighed inside
  interval_cases declaration
  case «3» => exact absurd rfl other
  all_goals
    refine rule_eq_none recorded ?_
    rw [Index.declaration, Index.declaration, declarations_weighed, registry_weighed]
    rfl

theorem isExact_weighed : IsExact weighed masses := by
  have five : (index weighed).declarations.length = 5 := by rw [declarations_weighed]; rfl
  exact isExact_of_only masses_ne_zero (fun declaration inside => factor_weighed (five ▸ inside))
    rule_weighed literalValue_gram fun declaration inside => rule_weighed_eq_none (five ▸ inside)

theorem reported_weighed : reported weighed = [0, 1] := by
  rw [reported, final, start_weighed, built_weighed]
  cbv

/-- What is kept, where everything has the rate two: so has the displayed mass. -/
theorem weighed_rate_kept :
    (analyse weighed).type.isValid ∧ IsExact weighed masses ∧
      let kept := (analyse weighed).stored (fun _ => 1) (fun _ => 2)
        ⟨fun _ => 0, fun _ _ => 0, fun _ left _ => left, fun _ => 0, 0⟩
      ((Expr.rate 2 .absent 3).rescale (rule weighed) false).meaning kept false = (2 : ℚ) := by
  refine ⟨valid_weighed, isExact_weighed, ?_⟩
  obtain ⟨-, rates⟩ := rates_converted_for_integration weighed masses valid_weighed isExact_weighed
    ⟨fun _ => 0, fun _ _ => 0, fun _ left _ => left, fun _ => 0, 0⟩ (fun _ => 1) (fun _ => 2)
  have one : (analyse weighed).factor masses 2 = 1 := factor_weighed (by decide)
  refine (rates 2 3 .absent).1.trans ?_
  rw [one, inv_one, one_mul]

/-- The display shows the rate of a mass in kilograms as it is, where it means the rate in grams. -/
theorem weighed_rate_unconverted :
    (analyse weighed).type = .ode ∧
      (∃ units, (Units.Registry.ofDefinitions weighed.units).toOption = some units ∧
        ∀ declared ∈ (index weighed).declarations, units.contains declared.units) ∧
      IsExact weighed masses ∧
      ∃ source result, (built weighed)[1]? = some source ∧
        (analyse weighed).equations[1]? = some result ∧
        ∀ reading : Reading ℚ,
          let kept := (analyse weighed).stored (fun _ => 1) (fun _ => 1) reading
          result.expr.meaning kept false ≠
            source.expr.meaning ((analyse weighed).asDeclared masses kept) false := by
  have listed : (reported weighed)[1]? = some 1 := by rw [reported_weighed]; rfl
  obtain ⟨source, result, foundSource, found, means⟩ :=
    exists_meaning valid_weighed isExact_weighed listed
  refine ⟨type_weighed, ⟨_, rfl, ?_⟩, isExact_weighed, source, result, foundSource, found, ?_⟩
  · rw [declarations_weighed]
    decide
  · intro reading kept
    rw [built_weighed] at foundSource
    obtain rfl := Option.some.inj foundSource
    have time : (analyse weighed).factor masses 2 = 1 := factor_weighed (by decide)
    have mass : (analyse weighed).factor masses 3 = 1000 := factor_weighed (by decide)
    have shown : (analyse weighed).factor masses 4 = 1 := factor_weighed (by decide)
    rw [means kept, OrderedEquation.new, Expr.meaning_assignment, Expr.meaning_assignment]
    norm_num [Expr.meaning, Expr.derivative?, Expr.bound?, AnalysedModel.asScaled,
      AnalysedModel.asDeclared, AnalysedModel.stored, Reading.convert, kept, time, mass, shown,
      truthValue]

end Stage

end Analysis

end ComponentModel
