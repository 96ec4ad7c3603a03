import ComponentModel.Proofs.NumberTexts
import ComponentModel.Proofs.PythonSyntax.Powers
import ComponentModel.Proofs.SignedRendering

/-!
# The value of rendered powers

In the default profile for Python, powers and roots are written with the power operator. It groups
to the right, and a sign in front of a base is one of the whole power. So a base needs parentheses
if it is a power itself or a negative number, and an exponent if it is a difference; but neither
gets them. The code has the value of the chain that is written; it is the value of the expression if
there is no such base, and no such exponent.
-/

namespace ComponentModel

namespace Decimal

/-- The exact value of a number, as it is written. -/
def numberValue (written : String) : ℚ :=
  ((Numeral.ofChars? written.toList).map (Numeral.value ℚ)).getD 0

theorem numberValue_of_unsigned {written : String}
    (unsigned : (Numeral.ofUnsigned? written.toList).isSome) :
    numberValue written = literalValue ℚ written := by
  obtain ⟨numeral, read⟩ := Option.isSome_iff_exists.mp unsigned
  rw [numberValue, literalValue, read, Numeral.ofChars?_of_ofUnsigned? read]

theorem numberValue_of_negative {written : String} {size : List Char}
    (spelled : written.toList = '-' :: size) (unsigned : (Numeral.ofUnsigned? size).isSome) :
    numberValue written = -literalValue ℚ (String.ofList size) := by
  obtain ⟨numeral, read⟩ := Option.isSome_iff_exists.mp unsigned
  rw [numberValue, literalValue, spelled, Numeral.ofChars?_cons rfl, String.toList_ofList, read]
  exact (Spelling.of_read read).value_signed ℚ true

end Decimal

namespace Equation

open Code (isAdditive isMinus isMultiplicative isNegativeNumber)
open CSyntax.Signed (Basic)
open Decimal (Numeral numberValue)

namespace Expr

/-- An expression of basic arithmetic with powers other than square roots, of variables and numbers
that may be negative. -/
inductive Powered (word : Nat → String) : Expr → Prop where
  | reference (declaration : Nat) : Powered word (reference declaration)
  | number {written : String} (unsigned : (Numeral.ofUnsigned? written.toList).isSome) :
      Powered word (number written)
  | negativeNumber {written : String} {size : List Char} (spelled : written.toList = '-' :: size)
      (unsigned : (Numeral.ofUnsigned? size).isSome) : Powered word (number written)
  | basic (operator : Basic) {left right : Expr} (poweredLeft : left.Powered word)
      (poweredRight : right.Powered word) :
      Powered word (apply operator.binary.operator left right)
  | power {base exponent : Expr} (notHalf : exponent.isNear word 0.5 = false)
      (poweredBase : base.Powered word) (poweredExponent : exponent.Powered word) :
      Powered word (apply .power base exponent)
  | root {degree radicand : Expr} (notTwo : degree.isNear word 2.0 = false)
      (poweredDegree : degree.Powered word) (poweredRadicand : radicand.Powered word) :
      Powered word (apply .root (apply .degree degree absent) radicand)

/-- Whether an expression is written with the power operator. -/
def isRaised (expr : Expr) : Bool :=
  expr.operator? == some .power || expr.operator? == some .root

/-- Whether the base of a power is written without the parentheses that it needs. -/
def isBareBase (base : Expr) : Bool :=
  base.isRaised || isNegativeNumber base

/-- Whether an operand of an operator is written without the parentheses that it needs. -/
def misgroups (operator : Operator) (left right : Expr) : Bool :=
  match operator with
  | .power => left.isBareBase || (isMinus right && !isMinus left)
  | .root => right.isBareBase
  | _ => false

/-- Whether anywhere in an expression a power is written without the parentheses that its base or
exponent needs. -/
def misgroupsPower : Expr → Bool
  | apply operator left right =>
      misgroups operator left right || left.misgroupsPower || right.misgroupsPower
  | _ => false

end Expr

/-- What variables, numbers and powers mean in a field. -/
structure Powers (K : Type*) where
  declared : Nat → K
  number : ℚ → K
  power : K → K → K

namespace Powers

variable {K : Type*} [Field K] (meaning : Powers K)

/-- The value of an expression. A root is a power with the inverse of the degree as exponent. -/
def value : Expr → K
  | .reference declaration => meaning.declared declaration
  | .number written => meaning.number (numberValue written)
  | .apply .plus left right => value left + value right
  | .apply .minus left right => value left - value right
  | .apply .times left right => value left * value right
  | .apply .divide left right => value left / value right
  | .apply .power base exponent => meaning.power (value base) (value exponent)
  | .apply .root (.apply .degree degree _) radicand =>
      meaning.power (value radicand) (1 / value degree)
  | _ => 0

/-- The chain of operands that is written for an expression. -/
def chain : Expr → Chain K
  | .reference declaration => .single (meaning.declared declaration)
  | .number written =>
      let value := meaning.number (numberValue written)
      if isNegativeNumber (.number written) then .negative (-value) else .single value
  | .apply .plus left right => .join (.basic .plus) (chain left) (chain right)
  | .apply .minus left right =>
      .join (.basic .minus) (chain left)
        ((chain right).enclosed (isAdditive right || isNegativeNumber right))
  | .apply .times left right =>
      .join (.basic .times) ((chain left).enclosed (isAdditive left))
        ((chain right).enclosed (isAdditive right))
  | .apply .divide left right =>
      .join (.basic .divide) ((chain left).enclosed (isAdditive left))
        ((chain right).enclosed (isMultiplicative right || isAdditive right))
  | .apply .power base exponent =>
      .join (.power meaning.power)
        ((chain base).enclosed (isAdditive base || isMultiplicative base))
        ((chain exponent).enclosed (isMinus base || isMultiplicative exponent ||
          exponent.isRaised || exponent.isBinary .plus))
  | .apply .root (.apply .degree degree _) radicand =>
      let inverse := Chain.join (.basic .divide) (.single 1)
        ((chain degree).enclosed (isAdditive degree || isMultiplicative degree || degree.isRaised))
      .join (.power meaning.power)
        ((chain radicand).enclosed (isAdditive radicand || isMultiplicative radicand))
        (.single inverse.value)
  | _ => .single 0

theorem chain_number (written : String) :
    meaning.chain (.number written) =
      if isNegativeNumber (.number written) then .negative (-meaning.number (numberValue written))
      else .single (meaning.number (numberValue written)) :=
  rfl

theorem chain_power (base exponent : Expr) :
    meaning.chain (.apply .power base exponent) =
      .join (.power meaning.power)
        ((meaning.chain base).enclosed (isAdditive base || isMultiplicative base))
        ((meaning.chain exponent).enclosed (isMinus base || isMultiplicative exponent ||
          exponent.isRaised || exponent.isBinary .plus)) :=
  rfl

theorem chain_root (degree radicand : Expr) :
    meaning.chain (.apply .root (.apply .degree degree .absent) radicand) =
      .join (.power meaning.power)
        ((meaning.chain radicand).enclosed (isAdditive radicand || isMultiplicative radicand))
        (.single (Chain.join (.basic .divide) (.single 1) ((meaning.chain degree).enclosed
          (isAdditive degree || isMultiplicative degree || degree.isRaised))).value) :=
  rfl

end Powers

/-! ## Chains without misgrouped powers -/

namespace Expr

variable {word : Nat → String} {expr left right : Expr}

theorem isPresent_of_powered (powered : expr.Powered word) : expr.isPresent := by
  cases powered with
  | basic operator => cases operator <;> rfl
  | _ => rfl

/-- There are no signs apart from those of numbers. -/
theorem isMinus_of_powered (powered : expr.Powered word) :
    isMinus expr = expr.isBinary .minus := by
  cases powered with
  | basic operator _ poweredRight =>
      simp [isMinus, isBinary, operator?, isPresent_of_powered poweredRight]
  | _ => rfl

end Expr

namespace Powers

variable {K : Type*} [Field K] {meaning : Powers K} {word : Nat → String}
  {expr left right base exponent degree radicand : Expr}

/-- The chain of an expression has the value of the expression, and its operators are those that the
expression tells. -/
structure Keeps (meaning : Powers K) (expr : Expr) : Prop where
  value_eq : (meaning.chain expr).value = meaning.value expr
  factor : isAdditive expr = false → (meaning.chain expr).Binds 6
  raised : isAdditive expr = false → isMultiplicative expr = false → (meaning.chain expr).Binds 7
  single : isAdditive expr = false → isMultiplicative expr = false → expr.isBareBase = false →
    meaning.chain expr = .single (meaning.value expr)

namespace Keeps

theorem leaf (isChain : meaning.chain expr = .single (meaning.value expr)) :
    meaning.Keeps expr where
  value_eq := by rw [isChain, Chain.value_single]
  factor _ := isChain ▸ Chain.binds_single _
  raised _ _ := isChain ▸ Chain.binds_single _
  single _ _ _ := isChain

/-- A sum or difference. -/
theorem sum (isSum : isAdditive expr = true)
    (isValue : (meaning.chain expr).value = meaning.value expr) : meaning.Keeps expr where
  value_eq := isValue
  factor noSum := by simp [isSum] at noSum
  raised noSum := by simp [isSum] at noSum
  single noSum := by simp [isSum] at noSum

/-- A product or quotient. -/
theorem product (isProduct : isMultiplicative expr = true)
    (isValue : (meaning.chain expr).value = meaning.value expr)
    (binds : (meaning.chain expr).Binds 6) : meaning.Keeps expr where
  value_eq := isValue
  factor _ := binds
  raised _ noProduct := by simp [isProduct] at noProduct
  single _ noProduct := by simp [isProduct] at noProduct

/-- A power, or a negative number. -/
theorem bare (isBare : expr.isBareBase = true)
    (isValue : (meaning.chain expr).value = meaning.value expr)
    (binds : (meaning.chain expr).Binds 7) : meaning.Keeps expr where
  value_eq := isValue
  factor _ := binds.mono (Nat.le_succ 6)
  raised _ _ := binds
  single _ _ notBare := by simp [isBare] at notBare

/-- An operand of a product or difference. -/
theorem enclosedFactor (keeps : meaning.Keeps expr) {needed : Bool}
    (enough : needed = false → isAdditive expr = false) :
    ((meaning.chain expr).enclosed needed).Binds 6 :=
  Chain.binds_enclosed fun unneeded => keeps.factor (enough unneeded)

/-- A divisor or exponent. -/
theorem enclosedRaised (keeps : meaning.Keeps expr) {needed : Bool}
    (enough : needed = false → isAdditive expr = false ∧ isMultiplicative expr = false) :
    ((meaning.chain expr).enclosed needed).Binds 7 :=
  Chain.binds_enclosed fun unneeded => keeps.raised (enough unneeded).1 (enough unneeded).2

/-- A base that is a single operand, or in parentheses. -/
theorem enclosedBase (keeps : meaning.Keeps expr) (notBare : expr.isBareBase = false) :
    (meaning.chain expr).enclosed (isAdditive expr || isMultiplicative expr) =
      .single (meaning.value expr) := by
  cases needed : isAdditive expr || isMultiplicative expr with
  | true => rw [Chain.enclosed, if_pos rfl, keeps.value_eq]
  | false =>
      obtain ⟨noSum, noProduct⟩ := Bool.or_eq_false_iff.mp needed
      exact keeps.single noSum noProduct notBare

theorem basic (operator : Basic) (keepsLeft : meaning.Keeps left) (keepsRight : meaning.Keeps right)
    (present : right.isPresent) : meaning.Keeps (.apply operator.binary.operator left right) := by
  have isLeft := keepsLeft.value_eq
  have isRight := keepsRight.value_eq
  cases operator with
  | plus =>
      refine .sum ?_ ((Chain.value_basic .plus (Chain.binds_five _) (Chain.binds_five _)).trans ?_)
      · simp [isAdditive, Expr.isBinary, Basic.binary, CSyntax.Binary.operator, present]
      · rw [isLeft, isRight]
        rfl
  | minus =>
      have bindsRight : ((meaning.chain right).enclosed
          (isAdditive right || isNegativeNumber right)).Binds 6 :=
        keepsRight.enclosedFactor fun unneeded => (Bool.or_eq_false_iff.mp unneeded).1
      have bindsLeft : ((meaning.chain left).enclosed false).Binds 5 := Chain.binds_five _
      refine .sum ?_ (Chain.value_operands .minus isLeft isRight bindsLeft bindsRight)
      simp [isAdditive, Expr.isBinary, Basic.binary, CSyntax.Binary.operator, present]
  | times =>
      have bindsLeft := keepsLeft.enclosedFactor id
      have bindsRight := keepsRight.enclosedFactor id
      exact .product rfl (Chain.value_operands .times isLeft isRight bindsLeft bindsRight)
        ((Chain.binds_join _).mpr ⟨bindsLeft, Nat.le_refl 6, bindsRight⟩)
  | divide =>
      have bindsLeft := keepsLeft.enclosedFactor id
      have bindsRight : ((meaning.chain right).enclosed
          (isMultiplicative right || isAdditive right)).Binds 7 :=
        keepsRight.enclosedRaised fun unneeded => (Bool.or_eq_false_iff.mp unneeded).symm
      exact .product rfl (Chain.value_operands .divide isLeft isRight bindsLeft bindsRight)
        ((Chain.binds_join _).mpr ⟨bindsLeft, Nat.le_refl 6, bindsRight.mono (Nat.le_succ 6)⟩)

theorem power (keepsBase : meaning.Keeps base) (keepsExponent : meaning.Keeps exponent)
    (poweredExponent : exponent.Powered word)
    (grouped : Expr.misgroups .power base exponent = false) :
    meaning.Keeps (.apply .power base exponent) := by
  obtain ⟨notBare, noDifference⟩ := Bool.or_eq_false_iff.mp grouped
  have isBase := keepsBase.enclosedBase notBare
  have bindsExponent : ((meaning.chain exponent).enclosed (isMinus base ||
      isMultiplicative exponent || exponent.isRaised || exponent.isBinary .plus)).Binds 7 := by
    refine keepsExponent.enclosedRaised fun unneeded => ?_
    simp only [Bool.or_eq_false_iff] at unneeded
    obtain ⟨⟨⟨noMinus, noProduct⟩, -⟩, noPlus⟩ := unneeded
    have noDifference : isMinus exponent = false := by simpa [noMinus] using noDifference
    refine ⟨?_, noProduct⟩
    rw [← Code.isMinus_or_isPlus (Expr.isMinus_of_powered poweredExponent), noDifference, noPlus]
    rfl
  refine .bare rfl ?_ ?_
  · rw [chain_power, isBase, Chain.value_power _ _ bindsExponent, Chain.value_enclosed,
      keepsExponent.value_eq]
    rfl
  · rw [chain_power, isBase]
    exact (Chain.binds_join _).mpr ⟨Chain.binds_single _, Nat.le_refl 7, bindsExponent⟩

theorem root (keepsDegree : meaning.Keeps degree) (keepsRadicand : meaning.Keeps radicand)
    (notBare : radicand.isBareBase = false) :
    meaning.Keeps (.apply .root (.apply .degree degree .absent) radicand) := by
  have isBase := keepsRadicand.enclosedBase notBare
  have bindsDegree : ((meaning.chain degree).enclosed
      (isAdditive degree || isMultiplicative degree || degree.isRaised)).Binds 7 :=
    keepsDegree.enclosedRaised fun unneeded =>
      Bool.or_eq_false_iff.mp (Bool.or_eq_false_iff.mp unneeded).1
  refine .bare rfl ?_ ?_
  · rw [chain_root, isBase, Chain.value_power _ _ (Chain.binds_single _), Chain.value_single,
      Chain.value_basic .divide (Chain.binds_single _) bindsDegree, Chain.value_single,
      Chain.value_enclosed, keepsDegree.value_eq]
    rfl
  · rw [chain_root, isBase]
    exact (Chain.binds_join _).mpr ⟨Chain.binds_single _, Nat.le_refl 7, Chain.binds_single _⟩

end Keeps

/-- Without a misgrouped power, an expression is written with its value. -/
theorem keeps (powered : expr.Powered word) (unaffected : expr.misgroupsPower = false) :
    meaning.Keeps expr := by
  induction powered with
  | reference => exact .leaf rfl
  | number unsigned =>
      refine .leaf ?_
      rw [chain_number, Code.isNegativeNumber_of_unsigned unsigned]
      rfl
  | @negativeNumber written size spelled =>
      have isNegative : isNegativeNumber (.number written) = true := by
        simp [isNegativeNumber, spelled]
      have isChain : meaning.chain (.number written) =
          .negative (-meaning.number (numberValue written)) := by
        rw [chain_number, if_pos isNegative]
      refine .bare (by simp [Expr.isBareBase, isNegative]) ?_ ?_
      · rw [isChain, Chain.value_negative, neg_neg]
        rfl
      · exact isChain ▸ Chain.binds_negative _
  | basic operator _ poweredRight leftHypothesis rightHypothesis =>
      rw [Expr.misgroupsPower, Bool.or_eq_false_iff, Bool.or_eq_false_iff] at unaffected
      exact .basic operator (leftHypothesis unaffected.1.2) (rightHypothesis unaffected.2)
        (Expr.isPresent_of_powered poweredRight)
  | power _ _ poweredExponent baseHypothesis exponentHypothesis =>
      rw [Expr.misgroupsPower, Bool.or_eq_false_iff, Bool.or_eq_false_iff] at unaffected
      obtain ⟨⟨grouped, inBase⟩, inExponent⟩ := unaffected
      exact .power (baseHypothesis inBase) (exponentHypothesis inExponent) poweredExponent grouped
  | @root degree radicand _ _ _ degreeHypothesis radicandHypothesis =>
      rw [Expr.misgroupsPower, Bool.or_eq_false_iff, Bool.or_eq_false_iff] at unaffected
      obtain ⟨⟨notBare, inside⟩, inRadicand⟩ := unaffected
      have inDegree : degree.misgroupsPower = false := by
        simpa [Expr.misgroupsPower, Expr.misgroups] using inside
      exact .root (degreeHypothesis inDegree) (radicandHypothesis inRadicand) notBare

end Powers

end Equation

namespace PythonSyntax

open Analysis (AnalysedModel)
open Code (Profile denotes grouped isAdditive isMinus isMultiplicative isNegativeNumber
  parenthesized)
open CSyntax (Binary Symbol Token)
open CSyntax.Signed (Basic)
open Decimal (EndsOperand Numeral literalValue numberValue)
open Equation (Expr Powers)

/-- The default profile for Python. -/
abbrev pythonProfile : Profile :=
  .ofKind .python

/-! ## What is written for an operator -/

section Code

variable {reference : Bool → Nat → String} {word : Nat → String}
  {expr left right base exponent degree radicand : Expr}

theorem isLoose_of_powered (powered : expr.Powered word) : pythonProfile.isLoose expr = false := by
  cases powered with
  | basic operator => cases operator <;> rfl
  | _ => rfl

theorem code_power (notHalf : denotes (pythonProfile.code reference false exponent) 0.5 = false) :
    pythonProfile.code reference false (.apply .power base exponent) =
      grouped (pythonProfile.leftNeeds .power base) (pythonProfile.code reference false base) ++
        "**" ++
        grouped (pythonProfile.rightNeeds .power base exponent)
          (pythonProfile.code reference false exponent) := by
  have isText : pythonProfile.code reference false (.apply .power base exponent) =
      pythonProfile.power ⟨base, pythonProfile.code reference false base⟩
        ⟨exponent, pythonProfile.code reference false exponent⟩ :=
    rfl
  have noSquare : (pythonProfile.text .square != "") = false := rfl
  rw [isText, Profile.power, notHalf, noSquare, Bool.and_false]
  rfl

/-- The base of a power gets parentheses if it is an operator of basic arithmetic. -/
theorem baseNeeds_of_powered (powered : base.Powered word) :
    pythonProfile.leftNeeds .power base = (isAdditive base || isMultiplicative base) := by
  rw [Profile.leftNeeds, isLoose_of_powered powered, Bool.false_or,
    ← Code.isMinus_or_isPlus (Expr.isMinus_of_powered powered), Bool.or_right_comm]

theorem exponentNeeds_of_powered (powered : exponent.Powered word) :
    pythonProfile.rightNeeds .power base exponent =
      (isMinus base || isMultiplicative exponent || exponent.isRaised ||
        exponent.isBinary .plus) := by
  have isPower : pythonProfile.isPower exponent = exponent.isRaised := Bool.and_true _
  rw [Profile.rightNeeds, isLoose_of_powered powered, Bool.false_or, isPower]

/-- A degree gets parentheses if it is any operator. -/
theorem degreeNeeds_of_powered (powered : degree.Powered word) :
    (pythonProfile.isLoose degree || isMinus degree || isMultiplicative degree ||
      pythonProfile.isPower degree || degree.isBinary .plus) =
        (isAdditive degree || isMultiplicative degree || degree.isRaised) := by
  have isPower : pythonProfile.isPower degree = degree.isRaised := Bool.and_true _
  rw [isLoose_of_powered powered, Bool.false_or, isPower, Bool.or_right_comm,
    Bool.or_right_comm (isMinus degree), Code.isMinus_or_isPlus (Expr.isMinus_of_powered powered)]

/-- On the right of a difference, sums, differences and negative numbers get parentheses. -/
theorem minusNeeds_of_powered (left : Expr) (powered : right.Powered word) :
    pythonProfile.rightNeeds .minus left right = (isAdditive right || isNegativeNumber right) := by
  rw [Profile.rightNeeds, isLoose_of_powered powered, Bool.false_or,
    Code.isMinus_or_isPlus (Expr.isMinus_of_powered powered)]

theorem code_root (present : radicand.isPresent)
    (notTwo : denotes (pythonProfile.code reference false degree) 2.0 = false) :
    pythonProfile.code reference false (.apply .root (.apply .degree degree .absent) radicand) =
      grouped (pythonProfile.leftNeeds .power radicand)
          (pythonProfile.code reference false radicand) ++
        "**" ++
        parenthesized ("1.0" ++ "/" ++
          grouped (pythonProfile.isLoose degree || isMinus degree || isMultiplicative degree ||
              pythonProfile.isPower degree || degree.isBinary .plus)
            (pythonProfile.code reference false degree)) := by
  have isText : pythonProfile.code reference false
      (.apply .root (.apply .degree degree .absent) radicand) =
      pythonProfile.application .root
        ⟨.apply .degree degree .absent, pythonProfile.code reference false degree⟩
        ⟨radicand, pythonProfile.code reference false radicand⟩ :=
    rfl
  have opened : "(1.0" = "(" ++ "1.0" := by decide
  rw [isText, Profile.application, if_pos present, Profile.root, notTwo, opened]
  simp only [parenthesized, ← String.append_assoc]
  rfl

theorem code_root_of_powered (poweredDegree : degree.Powered word)
    (poweredRadicand : radicand.Powered word)
    (notTwo : denotes (pythonProfile.code reference false degree) 2.0 = false) :
    pythonProfile.code reference false (.apply .root (.apply .degree degree .absent) radicand) =
      grouped (isAdditive radicand || isMultiplicative radicand)
          (pythonProfile.code reference false radicand) ++
        "**" ++
        parenthesized ("1.0" ++ "/" ++
          grouped (isAdditive degree || isMultiplicative degree || degree.isRaised)
            (pythonProfile.code reference false degree)) := by
  rw [code_root (Expr.isPresent_of_powered poweredRadicand) notTwo,
    baseNeeds_of_powered poweredRadicand, degreeNeeds_of_powered poweredDegree]

/-- A negative number is one without a sign behind a minus. -/
theorem code_negativeNumber {written : String} {size : List Char}
    (spelled : written.toList = '-' :: size) :
    Code.doubleText written = "-" ++ Code.doubleText (String.ofList size) := by
  rw [← String.toList_inj, Decimal.doubleText_cons rfl spelled, String.toList_append]
  rfl

theorem tellsNumber (ends : ∀ declaration, EndsOperand (reference false declaration))
    (powered : expr.Powered (reference false)) : pythonProfile.TellsNumber reference expr := by
  induction powered with
  | reference declaration => exact ⟨ends declaration, fun _ => rfl⟩
  | number unsigned =>
      exact ⟨.literal (Decimal.literalValue_doubleText unsigned (K := ℚ)).1, fun _ => rfl⟩
  | @negativeNumber written size spelled unsigned =>
      have isDouble :
          (Numeral.ofUnsigned? (Code.doubleText (String.ofList size)).toList).isSome := by
        refine (Decimal.literalValue_doubleText ?_ (K := ℚ)).1
        simpa using unsigned
      refine ⟨?_, fun _ => rfl⟩
      rw [Profile.code, code_negativeNumber spelled]
      exact (EndsOperand.literal isDouble).behind _
  | @basic operator left right _ poweredRight leftHypothesis rightHypothesis =>
      have present := Expr.isPresent_of_powered poweredRight
      refine .of_operator (Profile.code_basic .python reference operator left present)
        (leftHypothesis.ends.grouped _) ?_ (rightHypothesis.ends.grouped _) fun value => ?_
      · cases operator <;> rfl
      · exact Expr.isNear_apply present
  | power notHalf _ _ baseHypothesis exponentHypothesis =>
      exact .of_operator (code_power ((exponentHypothesis.denotes 0.5).trans notHalf))
        (baseHypothesis.ends.grouped _) rfl (exponentHypothesis.ends.grouped _) fun _ => rfl
  | root notTwo poweredDegree poweredRadicand degreeHypothesis radicandHypothesis =>
      have isTwo := (degreeHypothesis.denotes 2.0).trans notTwo
      exact .of_operator (code_root_of_powered poweredDegree poweredRadicand isTwo)
        (radicandHypothesis.ends.grouped _) rfl (.closed _) fun _ => rfl

end Code

/-! ## The text of an expression -/

section Text

variable {K : Type*} [Field K] {valuation : Valuation K} {reference : Bool → Nat → String}
  {expr left right base exponent degree radicand : Expr}

/-- What the parts of an expression mean if the words and powers of the language mean what they
do. -/
def Valuation.powers (valuation : Valuation K) (word : Nat → String) : Powers K where
  declared declaration := valuation.word (word declaration)
  number := valuation.number
  power := valuation.power

/-- Whether the code of an expression is the text of its chain. -/
def WritesChain (valuation : Valuation K) (reference : Bool → Nat → String) (expr : Expr) : Prop :=
  (language valuation).IsText (pythonProfile.code reference false expr)
    ((valuation.powers (reference false)).chain expr)

namespace WritesChain

theorem number {written : String} (unsigned : (Numeral.ofUnsigned? written.toList).isSome) :
    WritesChain valuation reference (.number written) := by
  obtain ⟨isDouble, sameValue⟩ := Decimal.literalValue_doubleText unsigned (K := ℚ)
  rw [WritesChain, Powers.chain_number, Code.isNegativeNumber_of_unsigned unsigned,
    Decimal.numberValue_of_unsigned unsigned, ← sameValue]
  exact .single (.literal isDouble)

theorem negativeNumber {written : String} {size : List Char}
    (spelled : written.toList = '-' :: size) (unsigned : (Numeral.ofUnsigned? size).isSome) :
    WritesChain valuation reference (.number written) := by
  have isNegative : isNegativeNumber (.number written) = true := by
    simp [isNegativeNumber, spelled]
  have sizeUnsigned : (Numeral.ofUnsigned? (String.ofList size).toList).isSome := by
    simpa using unsigned
  obtain ⟨isDouble, sameValue⟩ := Decimal.literalValue_doubleText sizeUnsigned (K := ℚ)
  have isSize : -(valuation.powers (reference false)).number (numberValue written) =
      valuation.number (literalValue ℚ (Code.doubleText (String.ofList size))) := by
    rw [Decimal.numberValue_of_negative spelled unsigned, sameValue]
    exact (congrArg Neg.neg (valuation.number_neg _)).trans (neg_neg _)
  rw [WritesChain, Powers.chain_number, if_pos isNegative, isSize, Profile.code,
    code_negativeNumber spelled]
  exact .operand (.negative (.literal isDouble))

theorem basic (operator : Basic) (writesLeft : WritesChain valuation reference left)
    (writesRight : WritesChain valuation reference right)
    (poweredLeft : left.Powered (reference false))
    (poweredRight : right.Powered (reference false)) :
    WritesChain valuation reference (.apply operator.binary.operator left right) := by
  have tightLeft := isLoose_of_powered poweredLeft
  have tightRight := isLoose_of_powered poweredRight
  have minusNeeds := minusNeeds_of_powered left poweredRight
  have isText : (language valuation).IsText _ _ := .basic operator
    (.enclosed (pythonProfile.leftNeeds operator.binary.operator left) writesLeft)
    (.enclosed (pythonProfile.rightNeeds operator.binary.operator left right) writesRight)
  rw [WritesChain, Profile.code_basic .python reference operator left
    (Expr.isPresent_of_powered poweredRight)]
  refine cast (congrArg _ ?_) isText
  cases operator with
  | minus =>
      simp only [Basic.binary, Binary.operator, minusNeeds, Profile.leftNeeds, tightLeft,
        Powers.chain, Chain.enclosed, Bool.false_eq_true, if_false]
  | _ =>
      simp only [Basic.binary, Binary.operator, Profile.leftNeeds, Profile.rightNeeds,
        Profile.divisorNeeds, tightLeft, tightRight, Bool.false_or, Powers.chain, Chain.enclosed,
        Bool.false_eq_true, if_false]

theorem power (writesBase : WritesChain valuation reference base)
    (writesExponent : WritesChain valuation reference exponent)
    (poweredBase : base.Powered (reference false))
    (poweredExponent : exponent.Powered (reference false))
    (notHalf : denotes (pythonProfile.code reference false exponent) 0.5 = false) :
    WritesChain valuation reference (.apply .power base exponent) := by
  rw [WritesChain, code_power notHalf, baseNeeds_of_powered poweredBase,
    exponentNeeds_of_powered poweredExponent]
  exact .power rfl (.enclosed _ writesBase) (.enclosed _ writesExponent)

theorem root (writesDegree : WritesChain valuation reference degree)
    (writesRadicand : WritesChain valuation reference radicand)
    (poweredDegree : degree.Powered (reference false))
    (poweredRadicand : radicand.Powered (reference false))
    (notTwo : denotes (pythonProfile.code reference false degree) 2.0 = false) :
    WritesChain valuation reference (.apply .root (.apply .degree degree .absent) radicand) := by
  have isOne : (language valuation).IsText "1.0" (.single 1) := by
    have isLiteral : (language valuation).IsText "1.0"
        (.single (valuation.number (literalValue ℚ "1.0"))) :=
      .single (.literal (by decide))
    have isValue : literalValue ℚ "1.0" = 1 := by decide +kernel
    rwa [isValue, valuation.number_one] at isLiteral
  have isInverse := isOne.basic .divide
    (.enclosed (isAdditive degree || isMultiplicative degree || degree.isRaised) writesDegree)
  rw [WritesChain, code_root_of_powered poweredDegree poweredRadicand notTwo]
  exact .power rfl (.enclosed _ writesRadicand) (isInverse.enclosed true)

end WritesChain

theorem writesChain (emitted : ∀ declaration, (Token.word (reference false declaration)).IsEmitted)
    (ends : ∀ declaration, EndsOperand (reference false declaration))
    (powered : expr.Powered (reference false)) : WritesChain valuation reference expr := by
  induction powered with
  | reference declaration => exact .single (.word (emitted declaration))
  | number unsigned => exact .number unsigned
  | negativeNumber spelled unsigned => exact .negativeNumber spelled unsigned
  | basic operator poweredLeft poweredRight leftHypothesis rightHypothesis =>
      exact leftHypothesis.basic operator rightHypothesis poweredLeft poweredRight
  | power notHalf poweredBase poweredExponent baseHypothesis exponentHypothesis =>
      have isHalf := (tellsNumber ends poweredExponent).denotes 0.5
      exact baseHypothesis.power exponentHypothesis poweredBase poweredExponent
        (isHalf.trans notHalf)
  | root notTwo poweredDegree poweredRadicand degreeHypothesis radicandHypothesis =>
      have isTwo := (tellsNumber ends poweredDegree).denotes 2.0
      exact degreeHypothesis.root radicandHypothesis poweredDegree poweredRadicand
        (isTwo.trans notTwo)

end Text

/-! ## The code of a model -/

theorem reference_isEmitted (analysed : AnalysedModel) (declaration : Nat) :
    (Token.word (pythonProfile.referenceText analysed false declaration)).IsEmitted := by
  have emittedName (name : String) (isName : CSyntax.IsName name.toList) (notRoot : name ≠ "sqrt")
      (noPlaceholder : 'I' ∉ name.toList) : (Token.word name).IsEmitted :=
    ⟨.name isName, by simpa using notRoot, noPlaceholder⟩
  rw [Profile.referenceText]
  split
  case h_1 type place _ =>
    cases type with
    | integrationVariable => exact emittedName "voi" (by decide) (by decide) (by decide)
    | state => exact CSyntax.element_isEmitted (by decide) (by decide) place
    | constant | computedConstant | algebraic =>
      exact CSyntax.element_isEmitted (by decide) (by decide) place
  case h_2 => exact emittedName "nan" (by decide) (by decide) (by decide)

/-- The text that an expression of basic arithmetic with powers and roots has in the Python code of
a model, read as an expression of the language, has one value: that of the chain that is written for
the expression. This is the value of the expression if no power is written without the parentheses
that its base or exponent needs. The bases that lack them are powers, roots and negative numbers,
`(a ^ b) ^ c` and `(-2) ^ b`, and the exponents are differences, `a ^ (b - c)`, unless the base is
one, too. -/
theorem powered_code_denotes {K : Type*} [Field K] (valuation : Valuation K)
    (analysed : AnalysedModel) {expr : Expr}
    (powered : expr.Powered ((Profile.ofKind .python).referenceText analysed false)) :
    let meaning := valuation.powers ((Profile.ofKind .python).referenceText analysed false)
    (∀ value : K,
      Denotes valuation
          ((Profile.ofKind .python).code ((Profile.ofKind .python).referenceText analysed) false
            expr) value ↔
        value = (meaning.chain expr).value) ∧
    (expr.misgroupsPower = false → (meaning.chain expr).value = meaning.value expr) := by
  intro meaning
  have spells : (grammar valuation).Spells 5 _ (meaning.chain expr).value :=
    (writesChain (reference_isEmitted analysed) (Decimal.endsOperand_referenceText .python analysed)
      powered).spells
  refine ⟨fun value => denotes_iff.symm.trans spells.denotes_iff, ?_⟩
  exact fun unaffected => (Powers.keeps powered unaffected).value_eq

/-- The constants seven, four and two, every number for itself, and powers with whole exponents. -/
def wholePowers : Valuation ℚ where
  word := CSyntax.sevenFourTwo.word
  number := id
  power base exponent := base ^ exponent.num.toNat
  number_one := rfl
  number_neg _ := rfl

/-- The difference `(a - b) ^ c - (-2)`. -/
def raisedDifference : Expr :=
  .apply .minus
    (.apply .power (.apply .minus (.reference 0) (.reference 1)) (.reference 2))
    (.number "-2")

theorem raisedDifference_denotes :
    raisedDifference.Powered
        ((Profile.ofKind .python).referenceText CSyntax.threeConstants false) ∧
      raisedDifference.misgroupsPower = false ∧
      Denotes wholePowers "(variables[0]-variables[1])**(variables[2])-(-2.0)" 11 := by
  have isNegative : "-2".toList = '-' :: ['2'] := rfl
  have powered : raisedDifference.Powered
      ((Profile.ofKind .python).referenceText CSyntax.threeConstants false) :=
    .basic .minus
      (.power (by decide) (.basic .minus (.reference 0) (.reference 1)) (.reference 2))
      (.negativeNumber isNegative (by decide))
  have isText : pythonProfile.code (pythonProfile.referenceText CSyntax.threeConstants) false
      raisedDifference = "(variables[0]-variables[1])**(variables[2])-(-2.0)" := by
    decide
  have isValue : 11 = (wholePowers.powers
      (pythonProfile.referenceText CSyntax.threeConstants false)).value raisedDifference := by
    decide +kernel
  obtain ⟨denotes, unaffected⟩ := powered_code_denotes wholePowers CSyntax.threeConstants powered
  exact ⟨powered, rfl, isText ▸ (denotes _).mpr (isValue.trans (unaffected rfl).symm)⟩

/-- The power `a ^ (b - c)`. -/
def toDifference : Expr :=
  .apply .power (.reference 0) (.apply .minus (.reference 1) (.reference 2))

/-- Of a difference as exponent, only the first operand is one. -/
theorem toDifference_misread :
    toDifference.Powered
        ((Profile.ofKind .python).referenceText CSyntax.threeConstants false) ∧
      (Profile.ofKind .python).code
          ((Profile.ofKind .python).referenceText CSyntax.threeConstants) false toDifference =
        "variables[0]**variables[1]-variables[2]" ∧
      (wholePowers.powers
        ((Profile.ofKind .python).referenceText CSyntax.threeConstants false)).value
          toDifference = 49 ∧
      Denotes wholePowers "variables[0]**variables[1]-variables[2]" 2399 ∧
      ¬Denotes wholePowers "variables[0]**variables[1]-variables[2]" 49 := by
  have powered : toDifference.Powered
      ((Profile.ofKind .python).referenceText CSyntax.threeConstants false) :=
    .power rfl (.reference 0) (.basic .minus (.reference 1) (.reference 2))
  have isText : pythonProfile.code (pythonProfile.referenceText CSyntax.threeConstants) false
      toDifference = "variables[0]**variables[1]-variables[2]" := by
    decide
  have isValue : ((wholePowers.powers
      (pythonProfile.referenceText CSyntax.threeConstants false)).chain toDifference).value =
        2399 := by
    decide +kernel
  have spells : (grammar wholePowers).Spells 5 _ _ :=
    (writesChain (reference_isEmitted CSyntax.threeConstants)
      (Decimal.endsOperand_referenceText .python CSyntax.threeConstants) powered).spells
  rw [isText, isValue] at spells
  refine ⟨powered, isText, by decide +kernel, denotes_iff.mp spells.denotes, fun other => ?_⟩
  exact absurd (spells.denotes_iff.mp (denotes_iff.mpr other)) (by decide +kernel)

end PythonSyntax

end ComponentModel
