import ComponentModel.Proofs.Chains
import ComponentModel.Proofs.PythonSyntax.Grammar

/-!
# The meaning of powers in Python

The value of basic arithmetic with signs and powers in a field, given what its words, its numbers
and a power mean. Chains of operands with signs are such expressions: the operands are literals,
words and groups in parentheses.
-/

namespace ComponentModel.PythonSyntax

open CSyntax (Emits Grammar Lexes)
open CSyntax.Signed (Basic)
open Decimal (literalValue)

/-- What words, numbers and powers mean in a field. A number is taken by its exact value, and its
sign is that of its meaning. -/
structure Valuation (K : Type*) [Field K] extends CSyntax.Signed.Valuation K where
  power : K → K → K
  number_one : number 1 = 1
  number_neg (size : ℚ) : number (-size) = -number size

variable {K : Type*} [Field K]

/-- The value of an expression. -/
def Expression.value (valuation : Valuation K) : Expression → K
  | literal text => valuation.number (literalValue ℚ text)
  | word text => valuation.word text
  | negative operand => -operand.value valuation
  | power base exponent => valuation.power (base.value valuation) (exponent.value valuation)
  | basic operator left right => operator.value (left.value valuation) (right.value valuation)

/-- Whether a text, read as an expression, has a value. -/
def Denotes (valuation : Valuation K) (text : String) (value : K) : Prop :=
  ∃ tokens expression, Lexes text.toList tokens ∧ Reads 5 tokens expression ∧
    expression.value valuation = value

variable {valuation : Valuation K}

/-- The language, with what its words, numbers and powers mean. -/
def grammar (valuation : Valuation K) : Grammar K where
  Expression := Expression
  Reads := Reads
  HasValue expression value := expression.value valuation = value
  tightest := 9
  literal text := valuation.number (literalValue ℚ text)
  word := valuation.word
  tighter := .tighter
  separated := Reads.isChain
  unique reads readsOther := (reads_zero_iff.mp reads).unique (reads_zero_iff.mp readsOther)
  value_unique isValue isOther := isValue.symm.trans isOther
  reads_literal text := ⟨.literal text, .literal text, rfl⟩
  reads_word text := ⟨.word text, .word text, rfl⟩
  reads_group reads := .group (reads_zero_iff.mp reads)

theorem denotes_iff {text : String} {value : K} :
    (grammar valuation).Denotes text value ↔ Denotes valuation text value :=
  exists₂_congr fun _ _ => and_congr_right' (and_congr_left' reads_zero_iff)

/-! ## Spelling -/

theorem prefixes_sign : (grammar valuation).Prefixes (.binary .minus) 7 7 Neg.neg := by
  rintro tokens value ⟨expression, reads, rfl⟩
  exact ⟨_, .negative reads, rfl⟩

theorem joins_basic (operator : Basic) :
    (grammar valuation).Joins (.binary operator.binary) operator.binary.level
      (operator.binary.level + 1) operator.binary.level operator.value := by
  rintro first second _ _ ⟨left, readsLeft, rfl⟩ ⟨right, readsRight, rfl⟩
  exact ⟨_, .basic operator rfl readsLeft readsRight, rfl⟩

/-- Whether a text is an expression of a level with a value. -/
abbrev Spells (valuation : Valuation K) : Nat → String → K → Prop :=
  (grammar valuation).Spells

theorem Spells.power {left right : String} {leftValue rightValue : K}
    (spellsBase : Spells valuation 9 left leftValue)
    (spellsExponent : Spells valuation 7 right rightValue) :
    Spells valuation 8 (left ++ "**" ++ right) (valuation.power leftValue rightValue) := by
  obtain ⟨tokens, emits, expression, reads, rfl⟩ := spellsBase
  obtain ⟨rightTokens, emitsRight, rightExpression, readsRight, rfl⟩ := spellsExponent
  have emitsStars := (Emits.symbol (.binary .times)).append (Emits.symbol (.binary .times))
  have emitsWhole := emits.append (emitsStars.append emitsRight)
  rw [← String.append_assoc] at emitsWhole
  exact ⟨_, emitsWhole, _, .power reads readsRight, rfl⟩

/-! ## Chains -/

/-- Whether a text is an operand with its sign. -/
inductive IsOperand (valuation : Valuation K) : SignedOperand K → String → Prop where
  | unsigned {text : String} {value : K} (spells : Spells valuation 9 text value) :
      IsOperand valuation ⟨false, value⟩ text
  | negative {text : String} {value : K} (spells : Spells valuation 9 text value) :
      IsOperand valuation ⟨true, value⟩ ("-" ++ text)

/-- The language, for chains of operands. -/
def language (valuation : Valuation K) : Language K where
  toGrammar := grammar valuation
  IsOperand := IsOperand valuation
  IsPower function := function = valuation.power
  basic := joins_basic
  unsigned := .unsigned
  operand isOperand := by
    cases isOperand with
    | unsigned spells => exact spells.mono (by decide)
    | negative spells =>
        have spellsSize : Spells valuation 7 _ _ := spells.mono (by decide)
        exact spellsSize.prefixed prefixes_sign
  power := by
    rintro _ _ _ _ _ rfl isOperand spellsExponent
    cases isOperand with
    | unsigned spells => exact (Spells.power spells spellsExponent).mono (by decide)
    | negative spells =>
        have spellsPower : Spells valuation 7 _ _ :=
          (Spells.power spells spellsExponent).mono (by decide)
        have spellsNegative := spellsPower.prefixed prefixes_sign
        rwa [← String.append_assoc, ← String.append_assoc] at spellsNegative

end ComponentModel.PythonSyntax
