import ComponentModel.Proofs.Chains

/-!
# Basic arithmetic with functions in C

The value of an expression in a field without an order, given what its words, its numbers and the
functions that it calls mean. Sums, differences, products, quotients and calls of functions of one
argument have a value; comparisons and what is made of them have none.

Chains of operands are such expressions: the operands are literals, words, calls and groups in
parentheses.
-/

namespace ComponentModel.CSyntax

open Decimal (literalValue)

/-- An operator as one of basic arithmetic. -/
def Signed.Basic.ofBinary? : Binary → Option Signed.Basic
  | .plus => some plus
  | .minus => some minus
  | .times => some times
  | .divide => some divide
  | _ => none

theorem Signed.Basic.ofBinary?_binary (operator : Signed.Basic) :
    ofBinary? operator.binary = some operator := by
  cases operator <;> rfl

namespace Functional

open Signed (Basic)

/-- What words, numbers and called functions mean in a field. A number is taken by its exact
value. -/
structure Valuation (K : Type*) extends Signed.Valuation K where
  function : String → K → K

variable {K : Type*} [Field K]

/-- The value of an expression, if it is one of basic arithmetic with functions. -/
def value? (valuation : Valuation K) : Expression → Option K
  | .literal text => some (valuation.number (literalValue ℚ text))
  | .word text => some (valuation.word text)
  | .unaryCall function argument => (value? valuation argument).map (valuation.function function)
  | .binary operator left right =>
      match Basic.ofBinary? operator, value? valuation left, value? valuation right with
      | some operator, some left, some right => some (operator.value left right)
      | _, _, _ => none
  | _ => none

theorem value?_unaryCall {valuation : Valuation K} (name : String) {argument : Expression}
    {value : K} (isValue : value? valuation argument = some value) :
    value? valuation (.unaryCall name argument) = some (valuation.function name value) := by
  rw [value?, isValue]
  rfl

theorem value?_basic {valuation : Valuation K} (operator : Basic) {left right : Expression}
    {leftValue rightValue : K} (isLeft : value? valuation left = some leftValue)
    (isRight : value? valuation right = some rightValue) :
    value? valuation (.binary operator.binary left right) =
      some (operator.value leftValue rightValue) := by
  rw [value?, Basic.ofBinary?_binary, isLeft, isRight]

/-- Whether a text, read as an expression, has a value. -/
def Denotes (valuation : Valuation K) (text : String) (value : K) : Prop :=
  ∃ tokens expression, Lexes text.toList tokens ∧ Reads 0 tokens expression ∧
    value? valuation expression = some value

variable {valuation : Valuation K}

/-- The language without an order, with what its words, numbers and functions mean. -/
def grammar (valuation : Valuation K) : Grammar K where
  Expression := Expression
  Reads := Reads
  HasValue expression value := value? valuation expression = some value
  tightest := 8
  literal text := valuation.number (literalValue ℚ text)
  word := valuation.word
  tighter := .tighter
  separated := Reads.isChain
  unique := Reads.unique
  value_unique isValue isOther := Option.some.inj (isValue.symm.trans isOther)
  reads_literal text := ⟨.literal text, .literal text, rfl⟩
  reads_word text := ⟨.word text, .word text, rfl⟩
  reads_group := .group

theorem calls_function (name : String) :
    (grammar valuation).Calls name (valuation.function name) := by
  rintro tokens value ⟨expression, reads, isValue⟩
  exact ⟨_, .unaryCall name reads, value?_unaryCall name isValue⟩

theorem joins_basic (operator : Basic) :
    (grammar valuation).Joins (.binary operator.binary) operator.binary.level
      (operator.binary.level + 1) operator.binary.level operator.value := by
  rintro first second _ _ ⟨left, readsLeft, isLeft⟩ ⟨right, readsRight, isRight⟩
  exact ⟨_, .binary operator.binary rfl readsLeft readsRight, value?_basic operator isLeft isRight⟩

/-- The language, for chains of operands. No operand has a sign in front, and there is no operator
for powers. -/
def language (valuation : Valuation K) : Language K where
  toGrammar := grammar valuation
  IsOperand operand text :=
    operand.negative = false ∧ (grammar valuation).Spells 8 text operand.base
  IsPower _ := False
  basic := joins_basic
  unsigned spells := ⟨rfl, spells⟩
  operand := by
    rintro ⟨negative, base⟩ text ⟨rfl, spells⟩
    exact spells.mono (by decide)
  power isPower := isPower.elim

end Functional

end ComponentModel.CSyntax
