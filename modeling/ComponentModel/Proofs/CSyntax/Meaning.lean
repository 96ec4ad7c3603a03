import ComponentModel.Proofs.CSyntax.Grammar
import ComponentModel.Proofs.Values

/-!
# The meaning of expressions in C

The value of an expression in an ordered field, given what its words and the functions that it
calls mean. Comparisons and connectives are zero or one, and everything but zero is true.
-/

namespace ComponentModel.CSyntax

open Decimal (literalValue)
open Equation (Interpretation Operator)

variable {K : Type*}

/-- What words and called functions mean. -/
structure Meaning (K : Type*) where
  word : String → K
  unary : String → K → K
  binary : String → K → K → K

section Values

variable [Field K] [LinearOrder K]

/-- The value of a binary operator. -/
def Binary.value (operator : Binary) (left right : K) : K :=
  match operator with
  | disjunction => truthValue (left ≠ 0 ∨ right ≠ 0)
  | conjunction => truthValue (left ≠ 0 ∧ right ≠ 0)
  | equal => truthValue (left = right)
  | unequal => truthValue (left ≠ right)
  | less => truthValue (left < right)
  | atMost => truthValue (left ≤ right)
  | greater => truthValue (left > right)
  | atLeast => truthValue (left ≥ right)
  | plus => left + right
  | minus => left - right
  | times => left * right
  | divide => left / right

/-- The value of an expression. -/
def Expression.value (meaning : Meaning K) : Expression → K
  | literal text => literalValue K text
  | word text => meaning.word text
  | unaryCall function argument => meaning.unary function (argument.value meaning)
  | binaryCall function first second =>
      meaning.binary function (first.value meaning) (second.value meaning)
  | negation operand => truthValue (operand.value meaning = 0)
  | binary operator left right => operator.value (left.value meaning) (right.value meaning)
  | conditional condition yes no =>
      if condition.value meaning ≠ 0 then yes.value meaning else no.value meaning

/-- The function that is called for an operator that is not one of the language. -/
def functionName : Operator → String
  | .absolute => "fabs"
  | .exp => "exp"
  | .ln => "log"
  | .ceiling => "ceil"
  | .floor => "floor"
  | .sin => "sin"
  | .cos => "cos"
  | .tan => "tan"
  | .sec => "sec"
  | .csc => "csc"
  | .cot => "cot"
  | .sinh => "sinh"
  | .cosh => "cosh"
  | .tanh => "tanh"
  | .sech => "sech"
  | .csch => "csch"
  | .coth => "coth"
  | .asin => "asin"
  | .acos => "acos"
  | .atan => "atan"
  | .asec => "asec"
  | .acsc => "acsc"
  | .acot => "acot"
  | .asinh => "asinh"
  | .acosh => "acosh"
  | .atanh => "atanh"
  | .asech => "asech"
  | .acsch => "acsch"
  | .acoth => "acoth"
  | .exclusive => "xor"
  | .minimum => "min"
  | .maximum => "max"
  | .remainder => "fmod"
  | _ => ""

/-- What the parts of an expression mean if the words and functions of the language mean what they
do: a variable is its word, and a named constant is the number or the word that stands for it. -/
def Meaning.interpretation (meaning : Meaning K) (word : Nat → String) : Interpretation K where
  declaration declaration := meaning.word (word declaration)
  constant
    | .eulerNumber => literalValue K "2.71828182845905"
    | .pi => literalValue K "3.14159265358979"
    | _ => meaning.word undefinedText
  unary operator := meaning.unary (functionName operator)
  binary operator := meaning.binary (functionName operator)

/-- Whether a text, read as an expression, has a value. -/
def Denotes (meaning : Meaning K) (text : String) (value : K) : Prop :=
  ∃ tokens expression, Lexes text.toList tokens ∧ Reads 0 tokens expression ∧
    expression.value meaning = value

/-- The language, with what its words and functions mean. -/
def grammar (meaning : Meaning K) : Grammar K where
  Expression := Expression
  Reads := Reads
  HasValue expression value := expression.value meaning = value
  tightest := 8
  literal := literalValue K
  word := meaning.word
  tighter := .tighter
  separated := Reads.isChain
  unique := Reads.unique
  value_unique isValue isOther := isValue.symm.trans isOther
  reads_literal text := ⟨.literal text, .literal text, rfl⟩
  reads_word text := ⟨.word text, .word text, rfl⟩
  reads_group := .group

/-! ## Operators that need no parentheses on the right -/

/-- Whether an operator may be taken after any operator of its level, or before it, with the same
result. -/
def Binary.Absorbs (K : Type*) [Field K] [LinearOrder K] (operator : Binary) : Prop :=
  ∀ other : Binary, other.level = operator.level → ∀ left middle right : K,
    operator.value left (other.value middle right) = other.value (operator.value left middle) right

/-- The level that an operator takes on its right without a change of the value. -/
def Binary.rightLevel (operator : Binary) : Nat :=
  match operator with
  | plus | times | conjunction | disjunction => operator.level
  | _ => operator.level + 1

theorem Binary.plus_absorbs : plus.Absorbs K := by
  intro other isLevel left middle right
  cases other <;> simp only [level] at isLevel
  case plus => exact (add_assoc left middle right).symm
  case minus => exact (add_sub_assoc left middle right).symm
  all_goals omega

theorem Binary.times_absorbs : times.Absorbs K := by
  intro other isLevel left middle right
  cases other <;> simp only [level] at isLevel
  case times => exact (mul_assoc left middle right).symm
  case divide => exact (mul_div_assoc left middle right).symm
  all_goals omega

theorem Binary.conjunction_absorbs : conjunction.Absorbs K := by
  intro other isLevel left middle right
  cases other <;> simp only [level] at isLevel
  case conjunction => simp only [value, truthValue_ne_zero, and_assoc]
  all_goals omega

theorem Binary.disjunction_absorbs : disjunction.Absorbs K := by
  intro other isLevel left middle right
  cases other <;> simp only [level] at isLevel
  case disjunction => simp only [value, truthValue_ne_zero, or_assoc]
  all_goals omega

/-- Without parentheses on the right, the right operand gives way: its leftmost operand becomes the
right operand of the absorbing operator, and the value is the same. -/
theorem Reads.absorb {operator : Binary} (absorbs : operator.Absorbs K) (meaning : Meaning K)
    {first second : List Token} {left right : Expression} {level : Nat}
    (isLevel : operator.level = level)
    (readsLeft : Reads level first left) (readsRight : Reads level second right) :
    ∃ whole, Reads level (first ++ .symbol (.binary operator) :: second) whole ∧
      whole.value meaning = operator.value (left.value meaning) (right.value meaning) := by
  have bounds := operator.level_bounds
  induction readsRight with
  | tighter readsRight => exact ⟨_, .binary operator isLevel readsLeft readsRight, rfl⟩
  | @binary level other isOtherLevel middle last _ rightmost _ readsLast inductionHypothesis =>
    obtain ⟨whole, reads, isValue⟩ := inductionHypothesis isLevel readsLeft
    refine ⟨.binary other whole rightmost, ?_, ?_⟩
    · simpa using Reads.binary other isOtherLevel reads readsLast
    · simp only [Expression.value, isValue]
      exact (absorbs other (isOtherLevel.trans isLevel.symm) _ _ _).symm
  | _ => omega

end Values

end ComponentModel.CSyntax
