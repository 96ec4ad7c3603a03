import ComponentModel.Proofs.CSyntax.Grammar

/-!
# Signs in C

Basic arithmetic with signs: sums, differences, products and quotients, which group to the left, of
operands that may have a minus in front. Such a sign binds tighter than all operators between two
operands. Every minus is a token of its own, also where two of them stand side by side.

Whether a minus is a sign or that of a difference is told by the token before it. With the signs
marked as negations, which bind as tightly, the tokens are those of an expression without signs; so
they are read in one way only.
-/

namespace ComponentModel.CSyntax.Signed

open Decimal (literalValue)

/-- An operator between two operands of basic arithmetic. -/
inductive Basic where
  | plus
  | minus
  | times
  | divide
  deriving Repr, DecidableEq

/-- An operator of basic arithmetic as one of all operators. -/
def Basic.binary : Basic → Binary
  | plus => .plus
  | minus => .minus
  | times => .times
  | divide => .divide

/-- An expression as the language reads it. Parentheses leave no trace. -/
inductive Expression where
  | literal (text : String)
  | word (text : String)
  | negative (operand : Expression)
  | basic (operator : Basic) (left right : Expression)
  deriving Repr, DecidableEq

/-- The expression that a list of tokens is at a level of precedence. -/
inductive Reads : Nat → List Token → Expression → Prop where
  | tighter {level : Nat} {tokens : List Token} {expression : Expression}
      (reads : Reads (level + 1) tokens expression) : Reads level tokens expression
  | basic {level : Nat} (operator : Basic) (isLevel : operator.binary.level = level)
      {first second : List Token} {left right : Expression}
      (readsLeft : Reads level first left) (readsRight : Reads (level + 1) second right) :
      Reads level (first ++ .symbol (.binary operator.binary) :: second)
        (.basic operator left right)
  | negative {tokens : List Token} {operand : Expression} (reads : Reads 7 tokens operand) :
      Reads 7 (.symbol (.binary .minus) :: tokens) (.negative operand)
  | literal (text : String) : Reads 8 [.literal text] (.literal text)
  | word (text : String) : Reads 8 [.word text] (.word text)
  | group {tokens : List Token} {expression : Expression} (reads : Reads 0 tokens expression) :
      Reads 8 (.symbol .opening :: (tokens ++ [.symbol .closing])) expression

theorem Reads.isChain {level : Nat} {tokens : List Token} {expression : Expression}
    (reads : Reads level tokens expression) : tokens.IsChain Token.Separated := by
  induction reads with
  | tighter _ inductionHypothesis => exact inductionHypothesis
  | basic _ _ _ _ leftHypothesis rightHypothesis =>
      exact isChain_append leftHypothesis rightHypothesis
  | negative _ inductionHypothesis => exact isChain_append .nil inductionHypothesis
  | literal text => exact .singleton _
  | word text => exact .singleton _
  | group _ inductionHypothesis =>
      exact isChain_append .nil (isChain_append inductionHypothesis .nil)

/-! ## Unambiguity -/

/-- The expression with its signs written as negations. -/
def Expression.marked : Expression → CSyntax.Expression
  | literal text => .literal text
  | word text => .word text
  | negative operand => .negation operand.marked
  | basic operator left right => .binary operator.binary left.marked right.marked

theorem Basic.binary_injective : Function.Injective Basic.binary := by
  intro one other same
  cases one <;> cases other <;> first | rfl | cases same

theorem Expression.marked_injective : Function.Injective Expression.marked := by
  intro one
  induction one with
  | literal text =>
      intro other same
      cases other <;> cases same
      rfl
  | word text =>
      intro other same
      cases other <;> cases same
      rfl
  | negative operand inductionHypothesis =>
      intro other same
      cases other with
      | negative other =>
          rw [inductionHypothesis (CSyntax.Expression.negation.inj same)]
      | literal | word | basic => cases same
  | basic operator left right leftHypothesis rightHypothesis =>
      intro other same
      cases other with
      | basic otherOperator otherLeft otherRight =>
          obtain ⟨sameOperator, sameLeft, sameRight⟩ := CSyntax.Expression.binary.inj same
          rw [Basic.binary_injective sameOperator, leftHypothesis sameLeft,
            rightHypothesis sameRight]
      | literal | word | negative => cases same

/-- Whether an operand ends with a token. -/
def endsOperand : Token → Bool
  | .literal _ | .word _ | .symbol .closing => true
  | _ => false

/-- The tokens with the signs marked as negations: a minus is a sign unless it stands `behind` an
operand. -/
def mark : (behind : Bool) → List Token → List Token
  | _, [] => []
  | false, .symbol (.binary .minus) :: rest => .symbol .negation :: mark false rest
  | _, token :: rest => token :: mark (endsOperand token) rest

theorem mark_operator (operator : Basic) (rest : List Token) :
    mark true (.symbol (.binary operator.binary) :: rest) =
      .symbol (.binary operator.binary) :: mark false rest := by
  cases operator <;> rfl

/-- What is read is read with the signs marked, too; and behind it a minus is no sign. -/
theorem Reads.marked {level : Nat} {tokens : List Token} {expression : Expression}
    (reads : Reads level tokens expression) :
    CSyntax.Reads level (mark false tokens) expression.marked ∧
      ∀ rest, mark false (tokens ++ rest) = mark false tokens ++ mark true rest := by
  have nothing : mark true [] = [] := rfl
  induction reads with
  | tighter _ inductionHypothesis => exact ⟨.tighter inductionHypothesis.1, inductionHypothesis.2⟩
  | @basic level operator isLevel first second left right _ _ leftHypothesis rightHypothesis =>
      obtain ⟨readsLeft, leftEnds⟩ := leftHypothesis
      obtain ⟨readsRight, rightEnds⟩ := rightHypothesis
      have marked : ∀ rest,
          mark false (first ++ .symbol (.binary operator.binary) :: (second ++ rest)) =
            mark false first ++ .symbol (.binary operator.binary) ::
              (mark false second ++ mark true rest) := by
        intro rest
        rw [leftEnds, mark_operator, rightEnds]
      have whole := marked []
      simp only [List.append_nil, nothing] at whole
      refine ⟨whole ▸ .binary operator.binary isLevel readsLeft readsRight, fun rest => ?_⟩
      rw [whole]
      simpa using marked rest
  | negative _ inductionHypothesis =>
      obtain ⟨reads, ends⟩ := inductionHypothesis
      exact ⟨.negation reads, fun rest => congrArg (Token.symbol .negation :: ·) (ends rest)⟩
  | literal text => exact ⟨.literal text, fun _ => rfl⟩
  | word text => exact ⟨.word text, fun _ => rfl⟩
  | @group tokens expression _ inductionHypothesis =>
      obtain ⟨reads, ends⟩ := inductionHypothesis
      have marked : ∀ rest, mark false (.symbol .opening :: (tokens ++ .symbol .closing :: rest)) =
          .symbol .opening :: (mark false tokens ++ .symbol .closing :: mark true rest) := by
        intro rest
        exact congrArg (Token.symbol .opening :: ·) (ends _)
      have whole := marked []
      rw [nothing] at whole
      refine ⟨whole ▸ .group reads, fun rest => ?_⟩
      rw [whole]
      simpa using marked rest

/-- The tokens of an expression are read in one way only. -/
theorem Reads.unique {tokens : List Token} {expression other : Expression}
    (reads : Reads 0 tokens expression) (readsOther : Reads 0 tokens other) :
    expression = other :=
  Expression.marked_injective (reads.marked.1.unique readsOther.marked.1)

/-! ## Meaning -/

/-- What words and numbers mean in a field. A number is taken by its exact value. -/
structure Valuation (K : Type*) where
  word : String → K
  number : ℚ → K

variable {K : Type*} [Field K]

/-- The value of an operator. -/
def Basic.value (operator : Basic) (left right : K) : K :=
  match operator with
  | plus => left + right
  | minus => left - right
  | times => left * right
  | divide => left / right

/-- The value of an expression. -/
def Expression.value (valuation : Valuation K) : Expression → K
  | literal text => valuation.number (literalValue ℚ text)
  | word text => valuation.word text
  | negative operand => -operand.value valuation
  | basic operator left right => operator.value (left.value valuation) (right.value valuation)

/-- Whether a text, read as basic arithmetic, has a value. -/
def Denotes (valuation : Valuation K) (text : String) (value : K) : Prop :=
  ∃ tokens expression, Lexes text.toList tokens ∧ Reads 0 tokens expression ∧
    expression.value valuation = value

variable {valuation : Valuation K}

/-- Basic arithmetic, with what its words and numbers mean. -/
def grammar (valuation : Valuation K) : Grammar K where
  Expression := Expression
  Reads := Reads
  HasValue expression value := expression.value valuation = value
  tightest := 8
  literal text := valuation.number (literalValue ℚ text)
  word := valuation.word
  tighter := .tighter
  separated := Reads.isChain
  unique := Reads.unique
  value_unique isValue isOther := isValue.symm.trans isOther
  reads_literal text := ⟨.literal text, .literal text, rfl⟩
  reads_word text := ⟨.word text, .word text, rfl⟩
  reads_group := .group

/-! ## Operands without parentheses -/

/-- The level that an operator takes on its right without a change of the value. -/
def Basic.rightLevel : Basic → Nat
  | plus => 5
  | minus => 6
  | times => 6
  | divide => 7

theorem Basic.level_bounds (operator : Basic) :
    5 ≤ operator.binary.level ∧ operator.binary.level ≤ 6 := by
  cases operator <;> decide

/-- A sum or product takes the operators of its own level on its right. -/
theorem Basic.absorbs {operator other : Basic} (takes : operator.rightLevel = operator.binary.level)
    (sameLevel : other.binary.level = operator.binary.level) (left middle right : K) :
    operator.value left (other.value middle right) =
      other.value (operator.value left middle) right := by
  cases operator <;> cases other <;> simp only [rightLevel, binary, Binary.level] at takes sameLevel
  case plus.plus => exact (add_assoc left middle right).symm
  case plus.minus => exact (add_sub_assoc left middle right).symm
  case times.times => exact (mul_assoc left middle right).symm
  case times.divide => exact (mul_div_assoc left middle right).symm
  all_goals omega

/-- Without parentheses on the right, the leftmost operand there becomes the right operand of the
absorbing operator, and the value is the same. -/
theorem Reads.absorb (valuation : Valuation K) {operator : Basic}
    (takes : operator.rightLevel = operator.binary.level) {first second : List Token}
    {left right : Expression} {level : Nat} (isLevel : operator.binary.level = level)
    (readsLeft : Reads level first left) (readsRight : Reads level second right) :
    ∃ whole, Reads level (first ++ .symbol (.binary operator.binary) :: second) whole ∧
      whole.value valuation = operator.value (left.value valuation) (right.value valuation) := by
  have bounds := operator.level_bounds
  induction readsRight with
  | tighter readsRight => exact ⟨_, .basic operator isLevel readsLeft readsRight, rfl⟩
  | @basic level other isOtherLevel middle last _ rightmost _ readsLast inductionHypothesis =>
      obtain ⟨whole, reads, isValue⟩ := inductionHypothesis isLevel readsLeft
      refine ⟨.basic other whole rightmost, ?_, ?_⟩
      · simpa using Reads.basic other isOtherLevel reads readsLast
      · simp only [Expression.value, isValue]
        exact (Basic.absorbs takes (isOtherLevel.trans isLevel.symm) _ _ _).symm
  | _ => omega

/-! ## Spelling -/

theorem prefixes_sign : (grammar valuation).Prefixes (.binary .minus) 7 7 Neg.neg := by
  rintro tokens value ⟨expression, reads, rfl⟩
  exact ⟨_, .negative reads, rfl⟩

/-- An operator with a right operand at the level that it takes there. -/
theorem joins_basic (operator : Basic) :
    (grammar valuation).Joins (.binary operator.binary) operator.binary.level operator.rightLevel
      operator.binary.level operator.value := by
  rintro first second _ _ ⟨left, readsLeft, rfl⟩ ⟨right, readsRight, rfl⟩
  by_cases takes : operator.rightLevel = operator.binary.level
  · rw [takes] at readsRight
    exact Reads.absorb valuation takes rfl readsLeft readsRight
  · have above : operator.rightLevel = operator.binary.level + 1 := by
      cases operator <;> first | rfl | exact absurd rfl takes
    rw [above] at readsRight
    exact ⟨_, .basic operator rfl readsLeft readsRight, rfl⟩

/-- Whether a text is an expression of a level with a value. -/
abbrev Spells (valuation : Valuation K) : Nat → String → K → Prop :=
  (grammar valuation).Spells

/-- Whether a text may stand in front of a product or quotient, where it changes the value of the
first factor. -/
abbrev Precedes (valuation : Valuation K) : String → (K → K) → Prop :=
  (grammar valuation).Precedes 7 6

end ComponentModel.CSyntax.Signed
