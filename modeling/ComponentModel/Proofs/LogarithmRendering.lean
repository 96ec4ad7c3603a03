import ComponentModel.Proofs.CSyntax.Functions
import ComponentModel.Proofs.NumberTexts
import ComponentModel.Proofs.SignedRendering

/-!
# The value of rendered logarithms

A plus sign of one argument is left out in the code, and a logarithm with a base is written as a
quotient of two natural logarithms. Whether an operand gets parentheses is decided by its operator,
which does not tell that its text is that of another expression: that of a sum behind a plus sign,
or a quotient. The code in the default profile for C has the value of the chain that is written; it
is the value of the expression if no operand is written without the parentheses that its text needs.
-/

namespace ComponentModel

namespace Equation

open Code (isAdditive isMultiplicative)
open CSyntax.Signed (Basic)
open Decimal (Numeral literalValue)

namespace Expr

/-- An expression of basic arithmetic with plus signs and logarithms to bases other than ten, of
variables and numbers without a sign. -/
inductive Logarithmic (word : Nat → String) : Expr → Prop where
  | reference (declaration : Nat) : Logarithmic word (reference declaration)
  | number {written : String} (unsigned : (Numeral.ofUnsigned? written.toList).isSome) :
      Logarithmic word (number written)
  | positive {operand : Expr} (logarithmic : operand.Logarithmic word) :
      Logarithmic word (apply .plus operand absent)
  | basic (operator : Basic) {left right : Expr} (logarithmicLeft : left.Logarithmic word)
      (logarithmicRight : right.Logarithmic word) :
      Logarithmic word (apply operator.binary.operator left right)
  | log {base argument : Expr} (notTen : base.isNear word 10.0 = false)
      (logarithmicBase : base.Logarithmic word) (logarithmicArgument : argument.Logarithmic word) :
      Logarithmic word (apply .log (apply .logbase base absent) argument)

/-- The level of the text of an expression: a plus sign is left out, and a logarithm is written as a
quotient. -/
def textLevel : Expr → Nat
  | apply .plus left right => if right.isPresent then 5 else left.textLevel
  | apply .minus _ _ => 5
  | apply .times _ _ => 6
  | apply .divide _ _ => 6
  | apply .log _ _ => 6
  | _ => 8

/-- Whether an expression is no operator of basic arithmetic itself, but its text is one that is
looser than a level. -/
def isExposed (level : Nat) (expr : Expr) : Bool :=
  !(isAdditive expr || isMultiplicative expr) && decide (expr.textLevel < level)

/-- Whether an operand of an operator is written without the parentheses that its text needs. -/
def exposes (operator : Operator) (left right : Expr) : Bool :=
  match operator with
  | .minus => right.isExposed 6
  | .times => left.isExposed 6 || right.isExposed 6
  | .divide => left.isExposed 6 || right.isExposed 7
  | _ => false

/-- Whether anywhere in an expression an operand is written without the parentheses that its text
needs. -/
def losesGrouping : Expr → Bool
  | apply operator left right =>
      exposes operator left right || left.losesGrouping || right.losesGrouping
  | _ => false

end Expr

/-- What variables, numbers and the natural logarithm mean in a field. -/
structure Logarithms (K : Type*) where
  declared : Nat → K
  number : ℚ → K
  ln : K → K

namespace Logarithms

variable {K : Type*} [Field K] (meaning : Logarithms K)

/-- The value of an expression. The logarithm to a base is a quotient of natural logarithms. -/
def value : Expr → K
  | .reference declaration => meaning.declared declaration
  | .number written => meaning.number (literalValue ℚ written)
  | .apply .plus left right => if right.isPresent then value left + value right else value left
  | .apply .minus left right => value left - value right
  | .apply .times left right => value left * value right
  | .apply .divide left right => value left / value right
  | .apply .log (.apply .logbase base _) argument =>
      meaning.ln (value argument) / meaning.ln (value base)
  | _ => 0

/-- The chain of operands that is written for an expression. -/
def chain : Expr → Chain K
  | .reference declaration => .single (meaning.declared declaration)
  | .number written => .single (meaning.number (literalValue ℚ written))
  | .apply .plus left right =>
      if right.isPresent then .join (.basic .plus) (chain left) (chain right) else chain left
  | .apply .minus left right =>
      .join (.basic .minus) (chain left) ((chain right).enclosed (isAdditive right))
  | .apply .times left right =>
      .join (.basic .times) ((chain left).enclosed (isAdditive left))
        ((chain right).enclosed (isAdditive right))
  | .apply .divide left right =>
      .join (.basic .divide) ((chain left).enclosed (isAdditive left))
        ((chain right).enclosed (isMultiplicative right || isAdditive right))
  | .apply .log (.apply .logbase base _) argument =>
      .join (.basic .divide) (.single (meaning.ln (chain argument).value))
        (.single (meaning.ln (chain base).value))
  | _ => .single 0

end Logarithms

/-! ## Chains without lost parentheses -/

namespace Expr

variable {word : Nat → String} {expr left right : Expr}

theorem isPresent_of_logarithmic (logarithmic : expr.Logarithmic word) : expr.isPresent := by
  cases logarithmic with
  | basic operator => cases operator <;> rfl
  | _ => rfl

theorem textLevel_of_isMultiplicative (isProduct : isMultiplicative expr) : expr.textLevel = 6 := by
  cases expr with
  | apply operator =>
      cases operator
      case times | divide => rfl
      all_goals cases isProduct
  | _ => cases isProduct

end Expr

namespace Logarithms

variable {K : Type*} [Field K] {meaning : Logarithms K} {word : Nat → String}
  {expr left right base argument : Expr}

/-- The chain of an expression has the value of the expression, and all of its operators bind as
tightly as the level of the text tells. -/
structure Keeps (meaning : Logarithms K) (expr : Expr) : Prop where
  value_eq : (meaning.chain expr).value = meaning.value expr
  binds : (meaning.chain expr).Binds expr.textLevel

namespace Keeps

/-- An operand that is no sum or difference, or in parentheses. -/
theorem factor (keeps : meaning.Keeps expr) (hidden : expr.isExposed 6 = false) :
    ((meaning.chain expr).enclosed (isAdditive expr)).Binds 6 := by
  refine Chain.binds_enclosed fun noSum => keeps.binds.mono ?_
  cases isProduct : isMultiplicative expr with
  | true => rw [Expr.textLevel_of_isMultiplicative isProduct]
  | false => simpa [Expr.isExposed, noSum, isProduct] using hidden

/-- A divisor that is a single operand, or in parentheses. -/
theorem divisor (keeps : meaning.Keeps expr) (hidden : expr.isExposed 7 = false) :
    ((meaning.chain expr).enclosed (isMultiplicative expr || isAdditive expr)).Binds 7 := by
  refine Chain.binds_enclosed fun unneeded => keeps.binds.mono ?_
  obtain ⟨noProduct, noSum⟩ := Bool.or_eq_false_iff.mp unneeded
  simpa [Expr.isExposed, noSum, noProduct] using hidden

theorem basic (operator : Basic) (keepsLeft : meaning.Keeps left) (keepsRight : meaning.Keeps right)
    (present : right.isPresent)
    (hidden : Expr.exposes operator.binary.operator left right = false) :
    meaning.Keeps (.apply operator.binary.operator left right) := by
  have isLeft := keepsLeft.value_eq
  have isRight := keepsRight.value_eq
  cases operator with
  | plus =>
      refine ⟨?_, ?_⟩
      · simp only [Basic.binary, CSyntax.Binary.operator, chain, value, if_pos present]
        rw [Chain.value_basic .plus (Chain.binds_five _) (Chain.binds_five _), isLeft, isRight]
        rfl
      · simp only [Basic.binary, CSyntax.Binary.operator, Expr.textLevel, if_pos present]
        exact Chain.binds_five _
  | minus =>
      have bindsLeft : ((meaning.chain left).enclosed false).Binds 5 := Chain.binds_five _
      exact ⟨Chain.value_operands .minus isLeft isRight bindsLeft (keepsRight.factor hidden),
        Chain.binds_five _⟩
  | times =>
      obtain ⟨hiddenLeft, hiddenRight⟩ := Bool.or_eq_false_iff.mp hidden
      have bindsLeft := keepsLeft.factor hiddenLeft
      have bindsRight := keepsRight.factor hiddenRight
      exact ⟨Chain.value_operands .times isLeft isRight bindsLeft bindsRight,
        (Chain.binds_join _).mpr ⟨bindsLeft, Nat.le_refl 6, bindsRight⟩⟩
  | divide =>
      obtain ⟨hiddenLeft, hiddenRight⟩ := Bool.or_eq_false_iff.mp hidden
      have bindsLeft := keepsLeft.factor hiddenLeft
      have bindsRight := keepsRight.divisor hiddenRight
      exact ⟨Chain.value_operands .divide isLeft isRight bindsLeft bindsRight,
        (Chain.binds_join _).mpr ⟨bindsLeft, Nat.le_refl 6, bindsRight.mono (Nat.le_succ 6)⟩⟩

theorem log (keepsBase : meaning.Keeps base) (keepsArgument : meaning.Keeps argument) :
    meaning.Keeps (.apply .log (.apply .logbase base .absent) argument) := by
  refine ⟨?_, ?_⟩
  · change (Chain.join _ _ _).value = _ / _
    rw [Chain.value_basic .divide (Chain.binds_single _) (Chain.binds_single _),
      Chain.value_single, Chain.value_single, keepsBase.value_eq, keepsArgument.value_eq]
    rfl
  · exact (Chain.binds_join _).mpr ⟨Chain.binds_single _, Nat.le_refl 6, Chain.binds_single _⟩

end Keeps

theorem keeps (logarithmic : expr.Logarithmic word) (unaffected : expr.losesGrouping = false) :
    meaning.Keeps expr := by
  induction logarithmic with
  | reference | number => exact ⟨rfl, Chain.binds_single _⟩
  | @positive operand _ inductionHypothesis =>
      have inside : operand.losesGrouping = false := by
        simpa [Expr.losesGrouping, Expr.exposes] using unaffected
      obtain ⟨isValue, binds⟩ := inductionHypothesis inside
      exact ⟨isValue, binds⟩
  | @basic operator left right _ logarithmicRight leftHypothesis rightHypothesis =>
      rw [Expr.losesGrouping, Bool.or_eq_false_iff, Bool.or_eq_false_iff] at unaffected
      obtain ⟨⟨hidden, inLeft⟩, inRight⟩ := unaffected
      exact .basic operator (leftHypothesis inLeft) (rightHypothesis inRight)
        (Expr.isPresent_of_logarithmic logarithmicRight) hidden
  | @log base argument _ _ _ baseHypothesis argumentHypothesis =>
      have inside : base.losesGrouping = false ∧ argument.losesGrouping = false := by
        simpa [Expr.losesGrouping, Expr.exposes] using unaffected
      exact .log (baseHypothesis inside.1) (argumentHypothesis inside.2)

end Logarithms

end Equation

namespace CSyntax.Functional

open Analysis (AnalysedModel)
open Code (Profile call denotes grouped isAdditive isMinus isMultiplicative isNegativeNumber)
open Decimal (EndsOperand Numeral)
open Equation (Expr Logarithms Operator)
open Signed (Basic)

/-! ## What is written for an operator -/

section Code

variable {reference : Bool → Nat → String} {expr left right base argument : Expr}

theorem isLoose_of_logarithmic {word : Nat → String} (logarithmic : expr.Logarithmic word) :
    cProfile.isLoose expr = false := by
  cases logarithmic with
  | basic operator => cases operator <;> rfl
  | _ => rfl

/-- On the right of a difference, sums and differences are put in parentheses. -/
theorem minusNeeds_of_logarithmic {word : Nat → String} (logarithmic : expr.Logarithmic word) :
    (isMinus expr || expr.isBinary .plus || isNegativeNumber expr) = isAdditive expr := by
  have noNegative : isNegativeNumber expr = false := by
    cases logarithmic with
    | number unsigned => exact Code.isNegativeNumber_of_unsigned unsigned
    | _ => rfl
  have noSign : isMinus expr = expr.isBinary .minus := by
    cases logarithmic with
    | basic operator _ logarithmicRight =>
        simp [isMinus, Expr.isBinary, Expr.operator?,
          Expr.isPresent_of_logarithmic logarithmicRight]
    | _ => rfl
  rw [noNegative, Bool.or_false, Code.isMinus_or_isPlus noSign]

theorem code_log (present : argument.isPresent)
    (notTen : denotes (cProfile.code reference false base) 10.0 = false) :
    cProfile.code reference false (.apply .log (.apply .logbase base .absent) argument) =
      call "log" [cProfile.code reference false argument] ++ "/" ++
        call "log" [cProfile.code reference false base] := by
  have isText : cProfile.code reference false
      (.apply .log (.apply .logbase base .absent) argument) =
      cProfile.application .log ⟨.apply .logbase base .absent, cProfile.code reference false base⟩
        ⟨argument, cProfile.code reference false argument⟩ :=
    rfl
  rw [isText, Profile.application, if_pos present, Profile.logarithm, notTen]
  rfl

theorem tellsNumber (ends : ∀ declaration, EndsOperand (reference false declaration))
    (logarithmic : expr.Logarithmic (reference false)) :
    cProfile.TellsNumber reference expr := by
  induction logarithmic with
  | reference declaration => exact ⟨ends declaration, fun _ => rfl⟩
  | number unsigned =>
      exact ⟨.literal (Decimal.literalValue_doubleText unsigned (K := ℚ)).1, fun _ => rfl⟩
  | positive _ inductionHypothesis => exact ⟨inductionHypothesis.ends, inductionHypothesis.denotes⟩
  | @basic operator left right _ logarithmicRight leftHypothesis rightHypothesis =>
      have present := Expr.isPresent_of_logarithmic logarithmicRight
      refine .of_operator (Profile.code_basic .c reference operator left present)
        (leftHypothesis.ends.grouped _) ?_ (rightHypothesis.ends.grouped _) fun value => ?_
      · cases operator <;> rfl
      · exact Expr.isNear_apply present
  | log notTen _ logarithmicArgument baseHypothesis =>
      have present := Expr.isPresent_of_logarithmic logarithmicArgument
      exact .of_operator (code_log present (baseHypothesis.denotes _ ▸ notTen))
        (.closed _) rfl (.closed _) fun _ => rfl

end Code

/-! ## The text of an expression -/

section Text

variable {K : Type*} [Field K] {valuation : Valuation K} {reference : Bool → Nat → String}
  {expr left right : Expr}

/-- What the parts of an expression mean if the words and functions of the language mean what they
do. -/
def Valuation.logarithms (valuation : Valuation K) (word : Nat → String) : Logarithms K where
  declared declaration := valuation.word (word declaration)
  number := valuation.number
  ln := valuation.function "log"

/-- Whether the code of an expression is the text of its chain. -/
def WritesChain (valuation : Valuation K) (reference : Bool → Nat → String) (expr : Expr) : Prop :=
  (language valuation).IsText (cProfile.code reference false expr)
    ((valuation.logarithms (reference false)).chain expr)

theorem WritesChain.basic (operator : Basic) (writesLeft : WritesChain valuation reference left)
    (writesRight : WritesChain valuation reference right)
    (logarithmicLeft : left.Logarithmic (reference false))
    (logarithmicRight : right.Logarithmic (reference false)) :
    WritesChain valuation reference (.apply operator.binary.operator left right) := by
  have present := Expr.isPresent_of_logarithmic logarithmicRight
  have tightLeft := isLoose_of_logarithmic logarithmicLeft
  have tightRight := isLoose_of_logarithmic logarithmicRight
  have isText : (language valuation).IsText _ _ := .basic operator
    (.enclosed (cProfile.leftNeeds operator.binary.operator left) writesLeft)
    (.enclosed (cProfile.rightNeeds operator.binary.operator left right) writesRight)
  rw [WritesChain, Profile.code_basic .c reference operator left present]
  refine cast (congrArg _ ?_) isText
  have minusNeeds := minusNeeds_of_logarithmic logarithmicRight
  cases operator <;> simp only [Basic.binary, Binary.operator, Profile.leftNeeds,
    Profile.rightNeeds, Profile.divisorNeeds, tightLeft, tightRight, Bool.false_or, minusNeeds,
    Logarithms.chain, if_pos present, Chain.enclosed, Bool.false_eq_true, if_false]

theorem writesChain (emitted : ∀ declaration, (Token.word (reference false declaration)).IsEmitted)
    (ends : ∀ declaration, EndsOperand (reference false declaration))
    (logarithmic : expr.Logarithmic (reference false)) : WritesChain valuation reference expr := by
  induction logarithmic with
  | reference declaration => exact .single (.word (emitted declaration))
  | @number written unsigned =>
      obtain ⟨isDouble, sameValue⟩ := Decimal.literalValue_doubleText unsigned (K := ℚ)
      rw [WritesChain, Logarithms.chain, ← sameValue]
      exact .single (.literal isDouble)
  | positive _ inductionHypothesis => exact inductionHypothesis
  | basic operator logarithmicLeft logarithmicRight leftHypothesis rightHypothesis =>
      exact leftHypothesis.basic operator rightHypothesis logarithmicLeft logarithmicRight
  | log notTen logarithmicBase logarithmicArgument baseHypothesis argumentHypothesis =>
      have present := Expr.isPresent_of_logarithmic logarithmicArgument
      have isTen := (tellsNumber ends logarithmicBase).denotes 10.0
      have isCalled : Operator.ln ∈ called := by decide
      have emittedLog : (Token.word "log").IsEmitted := functionName_isEmitted isCalled
      rw [WritesChain, code_log present (isTen.trans notTen)]
      exact .basic .divide
        (.single (argumentHypothesis.spells.called (calls_function "log") emittedLog))
        (.single (baseHypothesis.spells.called (calls_function "log") emittedLog))

end Text

/-! ## The code of a model -/

/-- The text that an expression of basic arithmetic with plus signs and logarithms has in the C code
of a model, read as an expression of the language, has one value: that of the chain that is written
for the expression. This is the value of the expression if no operand of an operator is written
without the parentheses that its text needs. The operands that can be are a sum, difference, product
or quotient behind a plus sign, and a logarithm as divisor: `a / log_b(x)` is written as
`a/log(x)/log(b)`. -/
theorem logarithmic_code_denotes {K : Type*} [Field K] (valuation : Valuation K)
    (analysed : AnalysedModel) {expr : Expr}
    (logarithmic : expr.Logarithmic ((Profile.ofKind .c).referenceText analysed false)) :
    let meaning := valuation.logarithms ((Profile.ofKind .c).referenceText analysed false)
    (∀ value : K,
      Denotes valuation
          ((Profile.ofKind .c).code ((Profile.ofKind .c).referenceText analysed) false expr) value ↔
        value = (meaning.chain expr).value) ∧
    (expr.losesGrouping = false → (meaning.chain expr).value = meaning.value expr) := by
  intro meaning
  have spells : (grammar valuation).Spells 5 _ (meaning.chain expr).value :=
    (writesChain (reference_isEmitted analysed) (Decimal.endsOperand_referenceText .c analysed)
      logarithmic).spells
  refine ⟨fun value => spells.denotes_iff, ?_⟩
  exact fun unaffected => (Logarithms.keeps logarithmic unaffected).value_eq

/-- The constants seven, four and two, every number for itself, and a function that leaves its
argument as it is. -/
def plainly : Valuation ℚ where
  toValuation := Signed.exactly
  function _ argument := argument

/-- The difference `+a - b * log_c(a)`. -/
def scaledLogarithm : Expr :=
  .apply .minus (.apply .plus (.reference 0) .absent)
    (.apply .times (.reference 1)
      (.apply .log (.apply .logbase (.reference 2) .absent) (.reference 0)))

theorem scaledLogarithm_denotes :
    scaledLogarithm.Logarithmic ((Profile.ofKind .c).referenceText threeConstants false) ∧
      scaledLogarithm.losesGrouping = false ∧
      Denotes plainly "variables[0]-variables[1]*log(variables[0])/log(variables[2])" (-7) := by
  have logarithmic :
      scaledLogarithm.Logarithmic ((Profile.ofKind .c).referenceText threeConstants false) :=
    .basic .minus (.positive (.reference 0))
      (.basic .times (.reference 1) (.log (by decide) (.reference 2) (.reference 0)))
  have isText : cProfile.code (cProfile.referenceText threeConstants) false scaledLogarithm =
      "variables[0]-variables[1]*log(variables[0])/log(variables[2])" := by
    decide
  have isValue : -7 =
      (plainly.logarithms (cProfile.referenceText threeConstants false)).value scaledLogarithm := by
    decide +kernel
  obtain ⟨denotes, unaffected⟩ := logarithmic_code_denotes plainly threeConstants logarithmic
  exact ⟨logarithmic, rfl, isText ▸ (denotes _).mpr (isValue.trans (unaffected rfl).symm)⟩

/-- The quotient `a / log_b(c)`. -/
def overLogarithm : Expr :=
  .apply .divide (.reference 0)
    (.apply .log (.apply .logbase (.reference 1) .absent) (.reference 2))

/-- A logarithm as divisor divides by the logarithm of its base, too. -/
theorem overLogarithm_misread :
    overLogarithm.Logarithmic ((Profile.ofKind .c).referenceText threeConstants false) ∧
      (Profile.ofKind .c).code ((Profile.ofKind .c).referenceText threeConstants) false
        overLogarithm = "variables[0]/log(variables[2])/log(variables[1])" ∧
      (plainly.logarithms ((Profile.ofKind .c).referenceText threeConstants false)).value
        overLogarithm = 14 ∧
      Denotes plainly "variables[0]/log(variables[2])/log(variables[1])" (7 / 8) ∧
      ¬Denotes plainly "variables[0]/log(variables[2])/log(variables[1])" 14 := by
  have logarithmic :
      overLogarithm.Logarithmic ((Profile.ofKind .c).referenceText threeConstants false) :=
    .basic .divide (.reference 0) (.log (by decide) (.reference 1) (.reference 2))
  have isText : cProfile.code (cProfile.referenceText threeConstants) false overLogarithm =
      "variables[0]/log(variables[2])/log(variables[1])" := by
    decide
  have isValue : ((plainly.logarithms (cProfile.referenceText threeConstants false)).chain
      overLogarithm).value = 7 / 8 := by
    decide +kernel
  have spells : (grammar plainly).Spells 5 _ _ :=
    (writesChain (reference_isEmitted threeConstants)
      (Decimal.endsOperand_referenceText .c threeConstants) logarithmic).spells
  rw [isText, isValue] at spells
  refine ⟨logarithmic, isText, by decide +kernel, spells.denotes, fun other => ?_⟩
  exact absurd (spells.denotes_iff.mp other) (by decide +kernel)

end CSyntax.Functional

end ComponentModel
