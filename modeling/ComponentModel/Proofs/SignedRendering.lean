import ComponentModel.Proofs.CSyntax.Signs
import ComponentModel.Proofs.Rendering

/-!
# The value of rendered signs

Basic arithmetic with signs in any field. The sign of a product or quotient is written without
parentheses, so it becomes one of the first factor. This does not change the value, unless the
product or quotient is a divisor: then only its first factor is divided by. The code in the default
profile for C, read by the grammar of the language, has the value of the expression as long as there
is no such divisor.

The proof is by induction on the expression. What is carried along is what the code spells behind a
text that changes the value of the first factor: behind a sign, or behind a dividend.
-/

namespace ComponentModel

namespace Equation

open Code (isMultiplicative)
open Decimal (Numeral literalValue)

namespace Expr

/-- An expression of basic arithmetic with signs, of variables and numbers without a sign. -/
inductive Signed : Expr → Prop where
  | reference (declaration : Nat) : Signed (reference declaration)
  | number {written : String} (unsigned : (Numeral.ofUnsigned? written.toList).isSome) :
      Signed (number written)
  | negative {operand : Expr} (signed : operand.Signed) : Signed (apply .minus operand absent)
  | plus {left right : Expr} (signedLeft : left.Signed) (signedRight : right.Signed) :
      Signed (apply .plus left right)
  | minus {left right : Expr} (signedLeft : left.Signed) (signedRight : right.Signed) :
      Signed (apply .minus left right)
  | times {left right : Expr} (signedLeft : left.Signed) (signedRight : right.Signed) :
      Signed (apply .times left right)
  | divide {left right : Expr} (signedLeft : left.Signed) (signedRight : right.Signed) :
      Signed (apply .divide left right)

/-- Whether an expression is a product or quotient with a sign in front. -/
def isNegativeProduct : Expr → Bool
  | apply .minus operand absent => isMultiplicative operand
  | _ => false

/-- Whether a divisor in an expression is a product or quotient with a sign in front. -/
def dividesByNegativeProduct : Expr → Bool
  | apply operator left right =>
      (operator == .divide && right.isNegativeProduct) || left.dividesByNegativeProduct ||
        right.dividesByNegativeProduct
  | _ => false

variable {K : Type*} [Field K] (number : ℚ → K) (declared : Nat → K)

/-- The value of an expression of basic arithmetic. A number is taken by its exact value. -/
def signedValue : Expr → K
  | .reference declaration => declared declaration
  | .number written => number (literalValue ℚ written)
  | .apply .minus operand .absent => -operand.signedValue
  | .apply .plus left right => left.signedValue + right.signedValue
  | .apply .minus left right => left.signedValue - right.signedValue
  | .apply .times left right => left.signedValue * right.signedValue
  | .apply .divide left right => left.signedValue / right.signedValue
  | _ => 0

/-- The value of an expression as it is written, with a `change` of its first factor: a sign in
front of a product or quotient changes the first factor, and so does a dividend, unless the divisor
is a product or quotient itself. -/
def writtenValue : (change : K → K) → Expr → K
  | change, .reference declaration => change (declared declaration)
  | change, .number written => change (number (literalValue ℚ written))
  | change, .apply .minus operand .absent =>
      if isMultiplicative operand then operand.writtenValue fun first => change (-first)
      else change (-operand.writtenValue id)
  | change, .apply .plus left right => change (left.writtenValue id + right.writtenValue id)
  | change, .apply .minus left right => change (left.writtenValue id - right.writtenValue id)
  | change, .apply .times left right => left.writtenValue change * right.writtenValue id
  | change, .apply .divide left right =>
      if isMultiplicative right then left.writtenValue change / right.writtenValue id
      else right.writtenValue fun first => left.writtenValue change / first
  | _, _ => 0

variable {number declared} {expr left right : Expr} {change : K → K}

theorem isPresent_of_signed (signed : expr.Signed) : expr.isPresent := by
  cases signed <;> rfl

theorem signedValue_minus (present : right.isPresent) :
    (apply .minus left right).signedValue number declared =
      left.signedValue number declared - right.signedValue number declared := by
  cases right <;> first | rfl | cases present

theorem writtenValue_minus (present : right.isPresent) :
    (apply .minus left right).writtenValue number declared change =
      change (left.writtenValue number declared id - right.writtenValue number declared id) := by
  cases right <;> first | rfl | cases present

theorem isNegativeProduct_minus (present : right.isPresent) :
    (apply .minus left right).isNegativeProduct = false := by
  cases right <;> first | rfl | cases present

/-- What is no product or quotient, with or without a sign in front, is its own first factor. -/
theorem writtenValue_of_single (signed : expr.Signed) (single : isMultiplicative expr = false)
    (noSign : expr.isNegativeProduct = false) (change : K → K) :
    expr.writtenValue number declared change = change (expr.writtenValue number declared id) := by
  cases signed with
  | reference | number | plus => rfl
  | @negative operand =>
      have isSingle : isMultiplicative operand = false := noSign
      simp [writtenValue, isSingle]
  | minus _ signedRight =>
      rw [writtenValue_minus (isPresent_of_signed signedRight),
        writtenValue_minus (isPresent_of_signed signedRight), id]
  | times | divide => cases single

/-- Whether products and quotients pass a change on to their first factor. -/
structure IsPassedOn (change : K → K) : Prop where
  times : ∀ first second, change first * second = change (first * second)
  divide : ∀ first second, change first / second = change (first / second)

/-- Without a negative product as divisor, an expression is written with its value. -/
theorem writtenValue_eq (signed : expr.Signed) (unaffected : expr.dividesByNegativeProduct = false)
    (passedOn : IsPassedOn change) :
    expr.writtenValue number declared change = change (expr.signedValue number declared) := by
  have unchanged : IsPassedOn (id : K → K) := ⟨fun _ _ => rfl, fun _ _ => rfl⟩
  induction signed generalizing change with
  | reference | number => rfl
  | @negative operand signed inductionHypothesis =>
      have inside : operand.dividesByNegativeProduct = false := by
        simpa [dividesByNegativeProduct] using unaffected
      have signPassedOn : IsPassedOn fun first => change (-first) := {
        times := fun first second => by rw [passedOn.times, neg_mul]
        divide := fun first second => by rw [passedOn.divide, neg_div] }
      rw [writtenValue, signedValue]
      split
      · exact inductionHypothesis inside signPassedOn
      · rw [inductionHypothesis inside unchanged, id]
  | plus signedLeft signedRight leftHypothesis rightHypothesis =>
      simp only [dividesByNegativeProduct, Bool.or_eq_false_iff] at unaffected
      rw [writtenValue, signedValue, leftHypothesis unaffected.1.2 unchanged,
        rightHypothesis unaffected.2 unchanged, id, id]
  | minus signedLeft signedRight leftHypothesis rightHypothesis =>
      have present := isPresent_of_signed signedRight
      simp only [dividesByNegativeProduct, Bool.or_eq_false_iff] at unaffected
      rw [writtenValue_minus present, signedValue_minus present,
        leftHypothesis unaffected.1.2 unchanged, rightHypothesis unaffected.2 unchanged, id, id]
  | times signedLeft signedRight leftHypothesis rightHypothesis =>
      simp only [dividesByNegativeProduct, Bool.or_eq_false_iff] at unaffected
      rw [writtenValue, signedValue, leftHypothesis unaffected.1.2 passedOn,
        rightHypothesis unaffected.2 unchanged, id, passedOn.times]
  | @divide left right signedLeft signedRight leftHypothesis rightHypothesis =>
      simp only [dividesByNegativeProduct, Bool.or_eq_false_iff] at unaffected
      obtain ⟨⟨noNegativeProduct, inLeft⟩, inRight⟩ := unaffected
      have divisor := rightHypothesis inRight unchanged
      rw [writtenValue, signedValue, leftHypothesis inLeft passedOn]
      split
      case isTrue => rw [divisor, id, passedOn.divide]
      case isFalse single =>
        rw [writtenValue_of_single signedRight (by simpa using single) noNegativeProduct, divisor,
          id, passedOn.divide]

end Expr

end Equation

/-- Basic arithmetic is written with the same operators in both default profiles. -/
theorem Code.Profile.code_basic (kind : Code.ProfileKind) (reference : Bool → Nat → String)
    (operator : CSyntax.Signed.Basic) (left : Equation.Expr) {right : Equation.Expr}
    (present : right.isPresent) :
    (ofKind kind).code reference false (.apply operator.binary.operator left right) =
      grouped ((ofKind kind).leftNeeds operator.binary.operator left)
          ((ofKind kind).code reference false left) ++
        (CSyntax.Symbol.binary operator.binary).text ++
        grouped ((ofKind kind).rightNeeds operator.binary.operator left right)
          ((ofKind kind).code reference false right) := by
  have notDiff : operator.binary.operator ≠ .diff := by cases operator <;> decide
  rw [code_apply _ reference false notDiff]
  cases operator with
  | plus | minus => cases kind <;> exact if_pos present
  | times | divide => cases kind <;> rfl

namespace CSyntax.Signed

open Analysis (AnalysedModel)
open Code (Profile grouped isAdditive isMinus isMultiplicative isNegativeNumber)
open Equation (Expr Operator)

/-! ## Levels of operands -/

/-- The level that an expression of basic arithmetic is written at. The sign of a product or
quotient is written in front of its first factor. -/
def exprLevel : Expr → Nat
  | .apply .minus operand .absent => if isMultiplicative operand then 6 else 7
  | .apply operator _ _ => operatorLevel operator
  | _ => 8

variable {expr left right operand : Expr}

theorem exprLevel_minus (present : right.isPresent) : exprLevel (.apply .minus left right) = 5 := by
  cases right <;> first | rfl | cases present

theorem isLoose_of_signed (signed : expr.Signed) : cProfile.isLoose expr = false := by
  cases signed <;> rfl

/-- Exactly sums and differences are looser than products. -/
theorem isAdditive_of_signed (signed : expr.Signed) :
    isAdditive expr = decide (exprLevel expr < 6) := by
  cases signed with
  | reference | number | times | divide => rfl
  | @negative operand =>
      cases isProduct : isMultiplicative operand <;> simp [exprLevel, isProduct] <;> rfl
  | plus _ signedRight =>
      simp [isAdditive, Expr.isBinary, Expr.isPresent_of_signed signedRight, exprLevel]
      rfl
  | minus _ signedRight =>
      have present := Expr.isPresent_of_signed signedRight
      simp [isAdditive, Expr.isBinary, present, exprLevel_minus present]

theorem five_le_exprLevel (signed : expr.Signed) : 5 ≤ exprLevel expr := by
  cases signed with
  | reference | number => exact Nat.le_of_ble_eq_true rfl
  | plus | times | divide => exact Nat.le_of_ble_eq_true rfl
  | negative =>
      rw [exprLevel]
      split <;> decide
  | minus _ signedRight => rw [exprLevel_minus (Expr.isPresent_of_signed signedRight)]

theorem six_le_exprLevel (isProduct : isMultiplicative expr) : 6 ≤ exprLevel expr := by
  cases expr with
  | apply operator =>
      cases operator
      case times | divide => exact Nat.le_refl 6
      all_goals cases isProduct
  | _ => cases isProduct

/-- Whether an operand is written in parentheses behind a sign. -/
def signNeeds (operand : Expr) : Bool :=
  operand.operator? == some .plus || isMinus operand || isNegativeNumber operand

/-- A product or quotient is written without parentheses behind a sign. -/
theorem signNeeds_of_product (isProduct : isMultiplicative operand) :
    signNeeds operand = false := by
  cases operand with
  | apply operator =>
      cases operator
      case times | divide => rfl
      all_goals cases isProduct
  | _ => cases isProduct

/-- Anything else that is written without parentheses there is no operator between two operands. -/
theorem seven_le_exprLevel (signed : operand.Signed) (single : isMultiplicative operand = false)
    (unneeded : signNeeds operand = false) : 7 ≤ exprLevel operand := by
  cases signed with
  | reference | number => exact Nat.le_of_ble_eq_true rfl
  | times | divide => cases single
  | negative | plus | minus => cases unneeded

/-- The right operand of a difference is a product at least, or put in parentheses. -/
theorem six_le_of_minus (signed : right.Signed)
    (unneeded : cProfile.rightNeeds .minus left right = false) : 6 ≤ exprLevel right := by
  simp only [Profile.rightNeeds, Bool.or_eq_false_iff] at unneeded
  obtain ⟨⟨⟨-, noMinus⟩, noPlus⟩, -⟩ := unneeded
  have additive := isAdditive_of_signed signed
  rw [isAdditive_eq_false noMinus noPlus] at additive
  have := of_decide_eq_false additive.symm
  omega

/-! ## What is written for an operator -/

section Code

variable (reference : Bool → Nat → String)

theorem code_negative (tight : cProfile.isLoose operand = false) :
    cProfile.code reference false (.apply .minus operand .absent) =
      "-" ++ grouped (signNeeds operand) (cProfile.code reference false operand) := by
  rw [Profile.code_apply _ reference false (by decide)]
  change cProfile.negative _ = _
  rw [Profile.negative, tight, Bool.false_or]
  rfl

end Code

/-! ## The text of an expression -/

section Text

variable {K : Type*} [Field K] {valuation : Valuation K} {reference : Bool → Nat → String}

/-- The value of an expression as it is written, with a change of its first factor. -/
abbrev written (valuation : Valuation K) (reference : Bool → Nat → String) (change : K → K)
    (expr : Expr) : K :=
  expr.writtenValue valuation.number
    (fun declaration => valuation.word (reference false declaration)) change

/-- The code of an expression spells the value as it is written, on its own and behind a text that
changes the value of the first factor. -/
structure SpellsWritten (valuation : Valuation K) (reference : Bool → Nat → String) (expr : Expr) :
    Prop where
  spells : Spells valuation (exprLevel expr) (cProfile.code reference false expr)
    (written valuation reference id expr)
  behind : 6 ≤ exprLevel expr → ∀ front change, Precedes valuation front change →
    Spells valuation 6 (front ++ cProfile.code reference false expr)
      (written valuation reference change expr)

/-- A sum or difference does not stand behind anything without parentheses. -/
theorem SpellsWritten.of_sum (isLevel : exprLevel expr = 5)
    (spells : Spells valuation 5 (cProfile.code reference false expr)
      (written valuation reference id expr)) : SpellsWritten valuation reference expr where
  spells := by rwa [isLevel]
  behind := by
    intro tight
    omega

/-- What stands behind a text also stands alone. -/
theorem SpellsWritten.of_product (isLevel : exprLevel expr = 6)
    (behind : ∀ front change, Precedes valuation front change →
      Spells valuation 6 (front ++ cProfile.code reference false expr)
        (written valuation reference change expr)) : SpellsWritten valuation reference expr where
  spells := by
    have alone := behind "" id (Grammar.precedes_nothing (by decide))
    rwa [String.empty_append, ← isLevel] at alone
  behind := fun _ => behind

/-- What is its own first factor stands behind a text as it stands alone. -/
theorem SpellsWritten.of_single (isLevel : 7 ≤ exprLevel expr)
    (spells : Spells valuation (exprLevel expr) (cProfile.code reference false expr)
      (written valuation reference id expr))
    (single : ∀ change, written valuation reference change expr =
      change (written valuation reference id expr)) : SpellsWritten valuation reference expr where
  spells := spells
  behind := by
    intro _ front change precedes
    rw [single change]
    exact precedes _ _ (spells.mono isLevel)

/-- A sign, which is one of the first factor of a product or quotient. -/
theorem SpellsWritten.negative (signed : operand.Signed)
    (isWritten : SpellsWritten valuation reference operand) :
    SpellsWritten valuation reference (.apply .minus operand .absent) := by
  cases isProduct : isMultiplicative operand with
  | true =>
      have isLevel : exprLevel (.apply .minus operand .absent) = 6 := by
        rw [exprLevel, if_pos isProduct]
      refine .of_product isLevel fun front change precedes => ?_
      rw [code_negative reference (isLoose_of_signed signed), signNeeds_of_product isProduct,
        ← String.append_assoc, written, Expr.writtenValue, if_pos isProduct]
      exact isWritten.behind (six_le_exprLevel isProduct) _ _
        (precedes.prefixed prefixes_sign)
  | false =>
      have isLevel : exprLevel (.apply .minus operand .absent) = 7 := by
        rw [exprLevel, if_neg (by simp [isProduct])]
      have isValue : ∀ change, written valuation reference change (.apply .minus operand .absent) =
          change (-written valuation reference id operand) := by
        intro change
        rw [written, Expr.writtenValue, if_neg (by simp [isProduct])]
      refine .of_single (Nat.le_of_eq isLevel.symm) ?_ fun change => ?_
      · rw [isLevel, code_negative reference (isLoose_of_signed signed), isValue]
        exact (isWritten.spells.grouped (seven_le_exprLevel signed isProduct)
          (Nat.le_of_ble_eq_true rfl)).prefixed prefixes_sign
      · rw [isValue, isValue, id]

/-- What is put in parentheses in a product is its own first factor. -/
theorem written_of_loose (signed : expr.Signed) (loose : exprLevel expr < 6) (change : K → K) :
    written valuation reference change expr = change (written valuation reference id expr) := by
  refine Expr.writtenValue_of_single signed ?_ ?_ change
  · by_contra isProduct
    have := six_le_exprLevel (by simpa using isProduct)
    omega
  · cases signed with
    | negative =>
        rw [exprLevel] at loose
        split at loose <;> omega
    | minus _ signedRight =>
        exact Expr.isNegativeProduct_minus (Expr.isPresent_of_signed signedRight)
    | _ => rfl

/-- The first operand of a product or quotient, behind a text. -/
theorem SpellsWritten.first {operator : Operator}
    (isProduct : operator = .times ∨ operator = .divide)
    (signed : left.Signed) (isWritten : SpellsWritten valuation reference left) {front : String}
    {change : K → K} (precedes : Precedes valuation front change) :
    Spells valuation 6
      (front ++ grouped (cProfile.leftNeeds operator left) (cProfile.code reference false left))
      (written valuation reference change left) := by
  have needs : cProfile.leftNeeds operator left = decide (exprLevel left < 6) := by
    rw [← isAdditive_of_signed signed]
    rcases isProduct with rfl | rfl <;> simp [Profile.leftNeeds, isLoose_of_signed signed]
  rw [needs]
  by_cases loose : exprLevel left < 6
  · rw [decide_eq_true loose, written_of_loose signed loose]
    exact precedes _ _ (isWritten.spells.parenthesized.mono (Nat.le_of_ble_eq_true rfl))
  · rw [decide_eq_false loose]
    exact isWritten.behind (Nat.le_of_not_lt loose) _ _ precedes

/-- A divisor behind a dividend. -/
theorem SpellsWritten.divisor (signed : right.Signed)
    (isWritten : SpellsWritten valuation reference right)
    {dividend : String} {value : K} (spells : Spells valuation 6 dividend value) :
    Spells valuation 6
      (dividend ++ "/" ++
        grouped (cProfile.rightNeeds .divide left right) (cProfile.code reference false right))
      (if isMultiplicative right then value / written valuation reference id right
        else written valuation reference (fun first => value / first) right) := by
  have needs : cProfile.rightNeeds .divide left right =
      (isMultiplicative right || decide (exprLevel right < 6)) := by
    rw [Profile.rightNeeds, Profile.divisorNeeds, isLoose_of_signed signed, Bool.false_or,
      isAdditive_of_signed signed]
  have inParentheses : Spells valuation 6 _ _ :=
    spells.precedes (joins_basic .divide) _ _
      (isWritten.spells.parenthesized.mono (Nat.le_of_ble_eq_true rfl))
  rw [needs]
  by_cases isProduct : isMultiplicative right
  · rw [if_pos isProduct, isProduct, Bool.true_or]
    exact inParentheses
  · rw [if_neg isProduct, Bool.eq_false_of_not_eq_true isProduct, Bool.false_or]
    by_cases loose : exprLevel right < 6
    · rw [decide_eq_true loose, written_of_loose signed loose]
      exact inParentheses
    · rw [decide_eq_false loose]
      exact isWritten.behind (Nat.le_of_not_lt loose) _ _ (spells.precedes (joins_basic .divide))

/-- An operator between operands that are put in parentheses where they need them. -/
theorem SpellsWritten.joined (operator : Basic) {needsLeft needsRight : Bool}
    (isWrittenLeft : SpellsWritten valuation reference left)
    (isWrittenRight : SpellsWritten valuation reference right)
    (leftLevel : needsLeft = false → operator.binary.level ≤ exprLevel left)
    (rightLevel : needsRight = false → operator.rightLevel ≤ exprLevel right) :
    Spells valuation operator.binary.level
      (grouped needsLeft (cProfile.code reference false left) ++
        (Symbol.binary operator.binary).text ++
        grouped needsRight (cProfile.code reference false right))
      (operator.value (written valuation reference id left)
        (written valuation reference id right)) := by
  have leftBound : operator.binary.level ≤ 8 := by cases operator <;> decide
  have rightBound : operator.rightLevel ≤ 8 := by cases operator <;> decide
  exact (isWrittenLeft.spells.grouped leftLevel leftBound).joined (joins_basic operator)
    (isWrittenRight.spells.grouped rightLevel rightBound)

/-- The text of an expression of basic arithmetic spells its value as it is written. -/
theorem spellsWritten
    (emitted : ∀ declaration, (Token.word (reference false declaration)).IsEmitted)
    (signed : expr.Signed) : SpellsWritten valuation reference expr := by
  induction signed with
  | reference declaration =>
      exact .of_single (Nat.le_of_ble_eq_true rfl) (.word (emitted declaration)) fun _ => rfl
  | @number text unsigned =>
      obtain ⟨isDouble, sameValue⟩ := Decimal.literalValue_doubleText unsigned (K := ℚ)
      refine .of_single (Nat.le_of_ble_eq_true rfl) ?_ fun _ => rfl
      rw [written, Expr.writtenValue, ← sameValue]
      exact .literal isDouble
  | negative signed inductionHypothesis => exact inductionHypothesis.negative signed
  | @plus left right signedLeft signedRight leftHypothesis rightHypothesis =>
      have present := Expr.isPresent_of_signed signedRight
      have isText := Profile.code_basic .c reference .plus left present
      refine .of_sum rfl ?_
      exact isText ▸ leftHypothesis.joined .plus rightHypothesis
        (fun _ => five_le_exprLevel signedLeft) (fun _ => five_le_exprLevel signedRight)
  | @minus left right signedLeft signedRight leftHypothesis rightHypothesis =>
      have present := Expr.isPresent_of_signed signedRight
      have isText := Profile.code_basic .c reference .minus left present
      refine .of_sum (exprLevel_minus present) ?_
      rw [written, Expr.writtenValue_minus present]
      exact isText ▸ leftHypothesis.joined .minus rightHypothesis
        (fun _ => five_le_exprLevel signedLeft) (six_le_of_minus signedRight)
  | @times left right signedLeft signedRight leftHypothesis rightHypothesis =>
      have isText : cProfile.code reference false (.apply .times left right) = _ :=
        Profile.code_basic .c reference .times left (Expr.isPresent_of_signed signedRight)
      have rightLevel : cProfile.rightNeeds .times left right = false → 6 ≤ exprLevel right := by
        rw [Profile.rightNeeds, isAdditive_of_signed signedRight]
        simp
      refine .of_product rfl fun front change precedes => ?_
      rw [isText, ← String.append_assoc, ← String.append_assoc]
      exact (leftHypothesis.first (.inl rfl) signedLeft precedes).joined (joins_basic .times)
        (rightHypothesis.spells.grouped rightLevel (Nat.le_of_ble_eq_true rfl))
  | @divide left right signedLeft signedRight leftHypothesis rightHypothesis =>
      have isText : cProfile.code reference false (.apply .divide left right) = _ :=
        Profile.code_basic .c reference .divide left (Expr.isPresent_of_signed signedRight)
      refine .of_product rfl fun front change precedes => ?_
      rw [isText, ← String.append_assoc, ← String.append_assoc]
      exact rightHypothesis.divisor signedRight
        (leftHypothesis.first (.inr rfl) signedLeft precedes)

end Text

/-! ## The code of a model -/

/-- The text that an expression of basic arithmetic with signs has in the C code of a model, read as
an expression of the language, has one value: that of the expression as it is written. This is the
value of the expression if no divisor is a product or quotient with a sign in front. By such a
divisor, `a / -(b * c)`, the code divides like `(a / -b) * c`. -/
theorem signed_code_denotes {K : Type*} [Field K] (valuation : Valuation K)
    (analysed : AnalysedModel) {expr : Expr} (signed : expr.Signed) :
    let declared := fun declaration =>
      valuation.word ((Profile.ofKind .c).referenceText analysed false declaration)
    (∀ value : K,
      Denotes valuation
          ((Profile.ofKind .c).code ((Profile.ofKind .c).referenceText analysed) false expr) value ↔
        value = expr.writtenValue valuation.number declared id) ∧
    (expr.dividesByNegativeProduct = false →
      expr.writtenValue valuation.number declared id =
        expr.signedValue valuation.number declared) := by
  intro declared
  have isWritten : SpellsWritten valuation _ expr :=
    spellsWritten (reference_isEmitted analysed) signed
  refine ⟨fun value => isWritten.spells.denotes_iff, ?_⟩
  exact fun unaffected => Expr.writtenValue_eq signed unaffected ⟨fun _ _ => rfl, fun _ _ => rfl⟩

/-- The constants seven, four and two, and every number for itself. -/
def exactly : Valuation ℚ :=
  ⟨sevenFourTwo.word, id⟩

/-- The negative product `-(a * b)` minus the quotient `c / -a`. -/
def signs : Expr :=
  .apply .minus (.apply .minus (.apply .times (.reference 0) (.reference 1)) .absent)
    (.apply .divide (.reference 2) (.apply .minus (.reference 0) .absent))

theorem signs_denotes :
    signs.Signed ∧ signs.dividesByNegativeProduct = false ∧
      Denotes exactly "-variables[0]*variables[1]-variables[2]/-variables[0]" (-194 / 7) := by
  have signed : signs.Signed :=
    .minus (.negative (.times (.reference 0) (.reference 1)))
      (.divide (.reference 2) (.negative (.reference 0)))
  have isText : cProfile.code (cProfile.referenceText threeConstants) false signs =
      "-variables[0]*variables[1]-variables[2]/-variables[0]" := by
    decide
  have isValue : -194 / 7 = signs.signedValue exactly.number fun declaration =>
      exactly.word (cProfile.referenceText threeConstants false declaration) := by
    decide +kernel
  obtain ⟨denotes, unaffected⟩ := signed_code_denotes exactly threeConstants signed
  exact ⟨signed, rfl, isText ▸ (denotes _).mpr (isValue.trans (unaffected rfl).symm)⟩

/-- The quotient `a / -(b * c)`. -/
def quotient : Expr :=
  .apply .divide (.reference 0)
    (.apply .minus (.apply .times (.reference 1) (.reference 2)) .absent)

/-- A product with a sign in front, as a divisor, divides by its first factor only. -/
theorem quotient_misread :
    quotient.Signed ∧
      (Profile.ofKind .c).code ((Profile.ofKind .c).referenceText threeConstants) false quotient =
        "variables[0]/-variables[1]*variables[2]" ∧
      (quotient.signedValue exactly.number fun declaration =>
        exactly.word ((Profile.ofKind .c).referenceText threeConstants false declaration)) = -7 / 8 ∧
      Denotes exactly "variables[0]/-variables[1]*variables[2]" (-7 / 2) ∧
      ¬Denotes exactly "variables[0]/-variables[1]*variables[2]" (-7 / 8) := by
  have signed : quotient.Signed :=
    .divide (.reference 0) (.negative (.times (.reference 1) (.reference 2)))
  have isText : cProfile.code (cProfile.referenceText threeConstants) false quotient =
      "variables[0]/-variables[1]*variables[2]" := by
    decide
  have isValue : written exactly (cProfile.referenceText threeConstants) id quotient = -7 / 2 := by
    decide +kernel
  have spells : Spells exactly _ _ _ :=
    (spellsWritten (reference_isEmitted threeConstants) signed).spells
  rw [isText, isValue] at spells
  refine ⟨signed, isText, by decide +kernel, spells.denotes, fun other => ?_⟩
  exact absurd (spells.denotes_iff.mp other) (by decide +kernel)

end CSyntax.Signed

end ComponentModel
