import ComponentModel.Code.Generation
import ComponentModel.Proofs.CSyntax.Operators
import ComponentModel.Proofs.CSyntax.Spelling
import Mathlib.Algebra.Order.Field.Rat

/-!
# The value of rendered expressions

The code of an elementary expression in the default profile for C, read by the grammar of the
language, has the value of the expression: leaving out parentheses changes which operators are
taken first, but only where that does not change the value. The proof is by induction on the
expression; what is carried along is the level that the code may stand at without parentheses.
-/

namespace ComponentModel.CSyntax

open Analysis (AnalysedModel)
open Code (Profile)
open Decimal (Numeral literalValue)
open Equation (Expr Interpretation Operator)

/-! ## Values of operators -/

section Values

variable {K : Type*} [Field K] [LinearOrder K] {interpretation : Interpretation K}

theorem value_apply {operator : Operator} (isApplied : operator ∉ [.piecewise, .piece, .otherwise])
    (left right : Expr) :
    (Expr.apply operator left right).value interpretation =
      operator.value interpretation (left.value interpretation) (right.value interpretation) := by
  cases operator
  case piecewise | piece | otherwise => simp at isApplied
  all_goals rfl

theorem value_operator (binary : Binary) (left right : K) :
    binary.operator.value interpretation left right = binary.value left right := by
  cases binary <;> rfl

theorem value_binaryCall {operator : Operator} (isCalled : operator ∈ calledOfTwo)
    (left right : K) :
    operator.value interpretation left right = interpretation.binary operator left right := by
  simp only [calledOfTwo, List.mem_cons, List.not_mem_nil, or_false] at isCalled
  rcases isCalled with rfl | rfl | rfl | rfl <;> rfl

theorem value_unaryCall {operator : Operator} (isUnary : operator ∈ Operator.ofOne)
    (left right : K) :
    operator.value interpretation left right = interpretation.unary operator left := by
  simp only [Operator.ofOne, List.mem_cons, List.not_mem_nil, or_false] at isUnary
  cases operator <;> simp only [reduceCtorEq, or_false, or_self] at isUnary <;> rfl

end Values

/-! ## The text of an elementary expression -/

section Text

variable {K : Type*} [Field K] [LinearOrder K] {meaning : Meaning K}

theorem spells_between (binary : Binary) {left right : Expr} (elementaryLeft : left.Elementary)
    (elementaryRight : right.Elementary) {leftCode rightCode : String} {leftValue rightValue : K}
    (spellsLeft : Spells meaning (exprLevel left) leftCode leftValue)
    (spellsRight : Spells meaning (exprLevel right) rightCode rightValue) :
    Spells meaning binary.level
      (cProfile.between binary.operator (Symbol.binary binary).text ⟨left, leftCode⟩
        ⟨right, rightCode⟩)
      (binary.value leftValue rightValue) := by
  have leftBound : binary.level ≤ 8 := by cases binary <;> decide
  have rightBound : binary.rightLevel ≤ 8 := by cases binary <;> decide
  exact (spellsLeft.grouped (level_le_left elementaryLeft) leftBound).joined
    (joins_operator binary) (spellsRight.grouped (level_le_right elementaryRight) rightBound)

theorem spells_negation {operand : Expr} (elementary : operand.Elementary) {code : String}
    {value : K} (spells : Spells meaning (exprLevel operand) code value) :
    Spells meaning 7 (cProfile.negation ⟨operand, code⟩) (truthValue (value = 0)) := by
  have isLevel : 7 ≤ (grammar meaning).tightest := Nat.le_of_ble_eq_true rfl
  refine (spells.grouped (fun unneeded => ?_) isLevel).prefixed prefixes_negation
  simp only [isLoose_eq, isAdditive_eq elementary, isMultiplicative_eq, Bool.or_eq_false_iff,
    decide_eq_false_iff_not] at unneeded
  omega

theorem spells_chain {inside condition rest : String} {value conditionValue restValue : K}
    {insideLevel conditionLevel restLevel : Nat}
    (spells : Spells meaning insideLevel inside value)
    (spellsCondition : Spells meaning conditionLevel condition conditionValue)
    (spellsRest : Spells meaning restLevel rest restValue) :
    Spells meaning 0 (cProfile.piece inside condition ++ cProfile.otherwise rest)
      (if conditionValue ≠ 0 then value else restValue) := by
  have spellsGroup : Spells meaning 1 (Code.parenthesized condition) conditionValue :=
    spellsCondition.parenthesized.mono (Nat.le_of_ble_eq_true rfl)
  have spellsWhole := Spells.conditional spellsGroup spells spellsRest
  rw [cProfile_piece spellsCondition.noPlaceholder, cProfile_otherwise]
  simpa [Code.parenthesized, String.append_assoc] using spellsWhole

theorem spells_undefined : Spells meaning 8 undefinedText (meaning.word undefinedText) :=
  .word ⟨.undefined, by decide, by decide⟩

theorem spells_read {text : String} {numeral : Numeral}
    (read : Numeral.ofUnsigned? text.toList = some numeral) :
    Spells meaning 8 text (numeral.value K) := by
  have spells : Spells meaning 8 text (literalValue K text) := .literal (by rw [read]; rfl)
  rwa [literalValue, read] at spells

theorem spells_falsity : Spells meaning 8 "0.0" 0 := by
  have spells : Spells meaning 8 "0.0" (Numeral.value K ⟨false, [0], [0], 0⟩) :=
    spells_read (by decide)
  simpa [Numeral.value, Decimal.digitsValue] using spells

variable [IsStrictOrderedRing K]

theorem spells_truth : Spells meaning 8 "1.0" 1 := by
  have spells : Spells meaning 8 "1.0" (Numeral.value K ⟨false, [1], [0], 0⟩) :=
    spells_read (by decide)
  simpa [Numeral.value, Decimal.digitsValue] using spells

theorem spells_constant {word : Nat → String} {operator : Operator}
    (isConstant : operator ∈ Operator.constants) (left right : Profile.Operand)
    (leftValue rightValue : K) :
    Spells meaning 8 (cProfile.application operator left right)
      (operator.value (meaning.interpretation word) leftValue rightValue) := by
  simp only [Operator.constants, List.mem_cons, List.not_mem_nil, or_false] at isConstant
  rcases isConstant with rfl | rfl | rfl | rfl | rfl
  · exact spells_truth
  · exact spells_falsity
  · have unsigned : (Numeral.ofUnsigned? "2.71828182845905".toList).isSome := by decide
    exact .literal unsigned
  · have unsigned : (Numeral.ofUnsigned? "3.14159265358979".toList).isSome := by decide
    exact .literal unsigned
  · exact spells_undefined

/-- The text of an elementary expression spells its value. -/
theorem spells_code {reference : Bool → Nat → String}
    (emitted : ∀ declaration, (Token.word (reference false declaration)).IsEmitted) {expr : Expr}
    (elementary : expr.Elementary) :
    Spells meaning (exprLevel expr) (cProfile.code reference false expr)
      (expr.value (meaning.interpretation (reference false))) := by
  induction elementary with
  | reference declaration => exact .word (emitted declaration)
  | @number written unsigned =>
    obtain ⟨isDouble, sameValue⟩ := Decimal.literalValue_doubleText unsigned (K := K)
    rw [Expr.value, ← sameValue]
    exact .literal isDouble
  | @constant operator isConstant =>
    obtain ⟨notDiff, isApplied⟩ := applied_of_mem (.inl isConstant)
    rw [Expr.leaf, Profile.code_apply _ reference false notDiff, value_apply isApplied]
    exact (spells_constant isConstant _ _ _ _).mono (exprLevel_le _)
  | @negation operand elementary inductionHypothesis =>
    rw [Profile.code_apply _ reference false (by decide)]
    exact spells_negation elementary inductionHypothesis
  | @unary operator isUnary argument elementary inductionHypothesis =>
    obtain ⟨notDiff, isApplied⟩ := applied_of_mem (.inr (.inl isUnary))
    have emittedName := functionName_isEmitted (List.mem_append_left _ isUnary)
    rw [Profile.code_apply _ reference false notDiff, value_apply isApplied,
      application_unaryCall isUnary, value_unaryCall isUnary]
    exact (inductionHypothesis.called (calls_unary _) emittedName).mono (exprLevel_le _)
  | @binary operator isBinary left right elementaryLeft elementaryRight leftHypothesis
      rightHypothesis =>
    obtain ⟨notDiff, isApplied⟩ := applied_of_mem (.inr (.inr isBinary))
    rw [Profile.code_apply _ reference false notDiff, value_apply isApplied]
    cases written : Binary.ofOperator? operator with
    | some binary =>
      have isLevel : operatorLevel operator = binary.level := by simp [operatorLevel, written]
      obtain rfl := Binary.operator_eq written
      rw [application_between binary _ (isPresent_of_elementary elementaryRight), value_operator]
      exact (spells_between binary elementaryLeft elementaryRight leftHypothesis
        rightHypothesis).mono (Nat.le_of_eq isLevel)
    | none =>
      have isCalled := mem_calledOfTwo isBinary written
      have emittedName := functionName_isEmitted (List.mem_append_right _ isCalled)
      rw [application_binaryCall isCalled, value_binaryCall isCalled]
      exact (Spells.binaryCall emittedName leftHypothesis rightHypothesis).mono (exprLevel_le _)
  | lastPiece _ _ insideHypothesis conditionHypothesis =>
    exact spells_chain insideHypothesis conditionHypothesis spells_undefined
  | twoPieces _ _ _ _ insideHypothesis conditionHypothesis secondHypothesis
      secondConditionHypothesis =>
    exact spells_chain insideHypothesis conditionHypothesis
      (spells_chain secondHypothesis secondConditionHypothesis spells_undefined)
  | otherwise _ _ _ insideHypothesis conditionHypothesis otherHypothesis =>
    exact spells_chain insideHypothesis conditionHypothesis otherHypothesis
  | @chain inside condition rest _ _ elementaryRest insideHypothesis conditionHypothesis
      restHypothesis =>
    rw [Profile.code_apply _ reference false (by decide)]
    change Spells meaning 0 (cProfile.chain _ _) _
    rw [chain_of_elementary elementaryRest]
    exact spells_chain insideHypothesis conditionHypothesis restHypothesis

end Text

/-! ## The code of a model -/

theorem element_isEmitted {array : String} (isName : IsName array.toList)
    (noPlaceholder : 'I' ∉ array.toList) (place : Nat) :
    (Token.word (array ++ "[" ++ Code.countText place ++ "]")).IsEmitted := by
  have areDigits : Decimal.AreDigits (Nat.toDigits 10 place) := fun _ member =>
    Nat.isDigit_of_mem_toDigits (by decide) (by decide) member
  have spelled : (array ++ "[" ++ Code.countText place ++ "]").toList =
      array.toList ++ '[' :: (Nat.toDigits 10 place ++ [']']) := by
    simp [Code.countText, Decimal.digitText]
  refine ⟨?_, ?_, ?_⟩
  · rw [Token.IsLexeme, spelled]
    exact .element isName Nat.toDigits_ne_nil areDigits
  · intro isRoot
    have closed : ']' ∈ "sqrt".toList := by
      rw [← Token.word.inj isRoot, spelled]
      simp
    exact absurd closed (by decide)
  · have notDigit : 'I' ∉ Nat.toDigits 10 place := fun member =>
      absurd (areDigits 'I' member) (by decide)
    rw [Token.characters, spelled]
    simp [noPlaceholder, notDigit]

theorem reference_isEmitted (analysed : AnalysedModel) (declaration : Nat) :
    (Token.word (cProfile.referenceText analysed false declaration)).IsEmitted := by
  rw [Profile.referenceText]
  split
  case h_1 type place _ =>
    cases type with
    | integrationVariable =>
      have emitted : (Token.word "voi").IsEmitted := ⟨.name (by decide), by decide, by decide⟩
      exact emitted
    | state => exact element_isEmitted (by decide) (by decide) place
    | constant | computedConstant | algebraic =>
      exact element_isEmitted (by decide) (by decide) place
  case h_2 => exact ⟨.undefined, by decide, by decide⟩

/-- The text that an elementary expression has in the C code of a model, read as an expression of
the language, has the value of the expression, and no other. -/
theorem code_denotes {K : Type*} [Field K] [LinearOrder K] [IsStrictOrderedRing K]
    (meaning : Meaning K) (analysed : AnalysedModel) {expr : Expr} (elementary : expr.Elementary)
    (value : K) :
    Denotes meaning
        ((Profile.ofKind .c).code ((Profile.ofKind .c).referenceText analysed) false expr) value ↔
      value = expr.value
        (meaning.interpretation ((Profile.ofKind .c).referenceText analysed false)) :=
  (spells_code (reference_isEmitted analysed) elementary).denotes_iff

/-- A model with three constants. -/
def threeConstants : AnalysedModel where
  type := .algebraic
  issues := []
  integration := none
  states := []
  otherVariables := []
  equations := []
  declarations := []
  classes := []
  bindings := [some (.constant, 0), some (.constant, 1), some (.constant, 2)]

/-- The difference `a - (b - c)` if `b` is less than `a`, and the product `a * (b / c)` if not. -/
def choice : Expr :=
  .apply .piecewise
    (.apply .piece
      (.apply .minus (.reference 0) (.apply .minus (.reference 1) (.reference 2)))
      (.apply .less (.reference 1) (.reference 0)))
    (.apply .otherwise
      (.apply .times (.reference 0) (.apply .divide (.reference 1) (.reference 2))) .absent)

/-- The constants seven, four and two. -/
def sevenFourTwo : Meaning ℚ where
  word text := if text = "variables[0]" then 7 else if text = "variables[1]" then 4 else 2
  unary _ argument := argument
  binary _ first _ := first

theorem choice_denotes :
    choice.Elementary ∧ Denotes sevenFourTwo
      ("(variables[1] < variables[0])?variables[0]-(variables[1]-variables[2])" ++
        ":variables[0]*variables[1]/variables[2]") 5 := by
  have elementary : choice.Elementary := by
    refine .otherwise (.binary (by decide) (.reference 0) ?_)
      (.binary (by decide) (.reference 1) (.reference 0)) (.binary (by decide) (.reference 0) ?_)
    · exact .binary (by decide) (.reference 1) (.reference 2)
    · exact .binary (by decide) (.reference 1) (.reference 2)
  have isText : cProfile.code (cProfile.referenceText threeConstants) false choice =
      "(variables[1] < variables[0])?variables[0]-(variables[1]-variables[2])" ++
        ":variables[0]*variables[1]/variables[2]" := by
    decide
  have isValue : 5 = choice.value
      (sevenFourTwo.interpretation (cProfile.referenceText threeConstants false)) := by
    decide +kernel
  exact ⟨elementary, isText ▸ (code_denotes sevenFourTwo threeConstants elementary 5).mpr isValue⟩

end ComponentModel.CSyntax
