import ComponentModel.Code.Defaults
import ComponentModel.Proofs.CSyntax.Meaning

/-!
# Operators in the default profile for C

What the default profile writes for the operators of elementary expressions: an operator between
its operands, a call, or a conditional. An operand that is written without parentheses is at a
level that the operator can take it at.
-/

namespace ComponentModel.Text

/-- Text without the second character of a placeholder is kept. -/
theorem fillChars_append {first mark : Char} {others value front rest : List Char}
    (noMark : mark ∉ front) (behind : rest.head? ≠ some mark) :
    fillChars (first :: mark :: others) value 0 (front ++ rest) =
      front ++ fillChars (first :: mark :: others) value 0 rest := by
  induction front with
  | nil => rfl
  | cons character front inductionHypothesis =>
    have noOccurrence : ¬mark :: others <+: front ++ rest := by
      rintro ⟨more, spelled⟩
      cases front with
      | nil => exact behind (by rw [← List.nil_append rest, ← spelled]; rfl)
      | cons next front =>
        obtain ⟨rfl, -⟩ := List.cons.inj spelled
        simp at noMark
    rw [List.cons_append, fillChars, if_neg (by simp [noOccurrence]), inductionHypothesis]
    · rfl
    · exact fun member => noMark (List.mem_cons_of_mem _ member)

theorem fill_append {first mark : Char} {others : List Char} {front rest placeholder : String}
    (value : String) (starts : placeholder.toList = first :: mark :: others)
    (noMark : mark ∉ front.toList) (behind : rest.toList.head? ≠ some mark) :
    fill (front ++ rest) placeholder value = front ++ fill rest placeholder value := by
  rw [← String.toList_inj]
  simp [fill, starts, fillChars_append noMark behind]

end ComponentModel.Text

/-- Apart from a derivative, the operands of an operator are rendered outside of derivatives. -/
theorem ComponentModel.Code.Profile.code_apply (profile : Profile)
    (reference : Bool → Nat → String) (rate : Bool) {operator : Equation.Operator}
    (notDiff : operator ≠ .diff) (left right : Equation.Expr) :
    profile.code reference rate (.apply operator left right) =
      profile.application operator ⟨left, profile.code reference false left⟩
        ⟨right, profile.code reference false right⟩ := by
  rw [Profile.code, beq_false_of_ne notDiff]

namespace ComponentModel.CSyntax

open Code (Profile)
open Equation (Expr Operator)

/-- The default profile for C. -/
abbrev cProfile : Profile :=
  .ofKind .c

theorem cProfile_piece {condition value : String} (noPlaceholder : 'I' ∉ condition.toList) :
    cProfile.piece value condition = "(" ++ condition ++ ")?" ++ value := by
  have filledCondition : Text.fill "(<CONDITION>)?<IF_STATEMENT>" "<CONDITION>" condition =
      "(" ++ condition ++ ")?<IF_STATEMENT>" := by
    rw [← String.toList_inj]
    simp [Text.fill, Text.fillChars]
  have filledValue : Text.fill ")?<IF_STATEMENT>" "<IF_STATEMENT>" value = ")?" ++ value := by
    rw [← String.toList_inj]
    simp [Text.fill, Text.fillChars]
  have noMark : 'I' ∉ ("(" ++ condition).toList := by simpa using noPlaceholder
  calc cProfile.piece value condition
    _ = Text.fill (Text.fill "(<CONDITION>)?<IF_STATEMENT>" "<CONDITION>" condition)
          "<IF_STATEMENT>" value := rfl
    _ = "(" ++ condition ++ Text.fill ")?<IF_STATEMENT>" "<IF_STATEMENT>" value := by
      rw [filledCondition]
      exact Text.fill_append value rfl noMark (by decide)
    _ = "(" ++ condition ++ ")?" ++ value := by simp [filledValue, String.append_assoc]

theorem cProfile_otherwise (value : String) : cProfile.otherwise value = ":" ++ value := by
  rw [← String.toList_inj]
  calc (cProfile.otherwise value).toList
    _ = (Text.fill ":<ELSE_STATEMENT>" "<ELSE_STATEMENT>" value).toList := rfl
    _ = (":" ++ value).toList := by simp [Text.fill, Text.fillChars]

/-! ## Levels of operands -/

/-- The operator of the language that an operator is written with. -/
def Binary.ofOperator? : Operator → Option Binary
  | .disjunction => some disjunction
  | .conjunction => some conjunction
  | .equal => some equal
  | .unequal => some unequal
  | .less => some less
  | .atMost => some atMost
  | .greater => some greater
  | .atLeast => some atLeast
  | .plus => some plus
  | .minus => some minus
  | .times => some times
  | .divide => some divide
  | _ => none

/-- The operator that an operator of the language is written for. -/
def Binary.operator : Binary → Operator
  | disjunction => .disjunction
  | conjunction => .conjunction
  | equal => .equal
  | unequal => .unequal
  | less => .less
  | atMost => .atMost
  | greater => .greater
  | atLeast => .atLeast
  | plus => .plus
  | minus => .minus
  | times => .times
  | divide => .divide

theorem Binary.operator_eq {operator : Operator} {binary : Binary}
    (written : ofOperator? operator = some binary) : binary.operator = operator := by
  cases operator <;> simp only [ofOperator?, Option.some.injEq, reduceCtorEq] at written <;>
    exact written ▸ rfl

/-- The level that an operator is written at. -/
def operatorLevel (operator : Operator) : Nat :=
  match Binary.ofOperator? operator, operator with
  | some binary, _ => binary.level
  | none, .negation => 7
  | none, .piecewise => 0
  | none, _ => 8

/-- The level that an expression is written at. -/
def exprLevel (expr : Expr) : Nat :=
  (expr.operator?.map operatorLevel).getD 8

theorem operatorLevel_le (operator : Operator) : operatorLevel operator ≤ 8 := by
  cases operator <;> decide

theorem exprLevel_le (expr : Expr) : exprLevel expr ≤ 8 := by
  cases expr with
  | apply operator => exact operatorLevel_le operator
  | _ => exact Nat.le_refl 8

theorem isLoose_eq (expr : Expr) : cProfile.isLoose expr = decide (exprLevel expr < 5) := by
  cases expr with
  | apply operator => cases operator <;> rfl
  | _ => rfl

theorem isMultiplicative_eq (expr : Expr) :
    Code.isMultiplicative expr = decide (exprLevel expr = 6) := by
  cases expr with
  | apply operator => cases operator <;> rfl
  | _ => rfl

theorem isPower_eq (expr : Expr) : cProfile.isPower expr = false := by
  cases expr with
  | apply operator => cases operator <;> rfl
  | _ => rfl

theorem isPresent_of_elementary {expr : Expr} (elementary : expr.Elementary) : expr.isPresent := by
  cases elementary <;> rfl

theorem isAdditive_eq {expr : Expr} (elementary : expr.Elementary) :
    Code.isAdditive expr = decide (exprLevel expr = 5) := by
  cases elementary with
  | @binary operator isBinary _ right _ elementaryRight =>
    have present := isPresent_of_elementary elementaryRight
    simp only [Code.isAdditive, Expr.isBinary, present, Bool.and_true]
    cases operator <;> rfl
  | @constant operator isConstant =>
    cases operator <;> first | rfl | simp [Operator.constants] at isConstant
  | @unary operator isUnary =>
    cases operator <;> first | rfl | simp [Operator.ofOne] at isUnary
  | _ => rfl

theorem operandNeeds_conjunction {expr : Expr} (elementary : expr.Elementary) :
    cProfile.operandNeeds .conjunction expr = decide (exprLevel expr ≠ 2 ∧ exprLevel expr < 6) := by
  rw [Profile.operandNeeds, isAdditive_eq elementary, isPower_eq]
  cases expr with
  | apply operator => cases operator <;> rfl
  | _ => rfl

theorem operandNeeds_disjunction {expr : Expr} (elementary : expr.Elementary) :
    cProfile.operandNeeds .disjunction expr = decide (exprLevel expr ≠ 1 ∧ exprLevel expr < 6) := by
  rw [Profile.operandNeeds, isAdditive_eq elementary, isPower_eq]
  cases expr with
  | apply operator => cases operator <;> rfl
  | _ => rfl

/-- A left operand without parentheses is at the level of the operator. -/
theorem level_le_left {binary : Binary} {left : Expr} (elementary : left.Elementary)
    (unneeded : cProfile.leftNeeds binary.operator left = false) :
    binary.level ≤ exprLevel left := by
  cases binary <;>
    simp only [Binary.operator, Profile.leftNeeds, isLoose_eq, isAdditive_eq elementary,
      operandNeeds_conjunction elementary, operandNeeds_disjunction elementary,
      Bool.or_eq_false_iff, decide_eq_false_iff_not] at unneeded <;>
    simp only [Binary.level] <;> omega

theorem isAdditive_eq_false {expr : Expr} (noMinus : Code.isMinus expr = false)
    (noPlus : expr.isBinary .plus = false) : Code.isAdditive expr = false := by
  rw [Code.isAdditive, noPlus, Bool.false_or]
  cases expr with
  | apply operator left right =>
    have : (operator == .minus) = false := by simpa [Code.isMinus, Expr.operator?] using noMinus
    simp [Expr.isBinary, this]
  | _ => rfl

/-- A right operand without parentheses is at the level that the operator takes on its right. -/
theorem level_le_right {binary : Binary} {left right : Expr} (elementary : right.Elementary)
    (unneeded : cProfile.rightNeeds binary.operator left right = false) :
    binary.rightLevel ≤ exprLevel right := by
  have additive := isAdditive_eq elementary
  cases binary <;>
    simp only [Binary.operator, Profile.rightNeeds, Profile.divisorNeeds, isLoose_eq, additive,
      isMultiplicative_eq, operandNeeds_conjunction elementary,
      operandNeeds_disjunction elementary, Bool.or_eq_false_iff,
      decide_eq_false_iff_not] at unneeded <;>
    simp only [Binary.rightLevel, Binary.level]
  case minus =>
    -- On the right of a difference sums and differences are tested one by one.
    obtain ⟨⟨⟨notLoose, noMinus⟩, noPlus⟩, -⟩ := unneeded
    rw [isAdditive_eq_false noMinus noPlus] at additive
    have := of_decide_eq_false additive.symm
    omega
  all_goals omega

/-! ## What is written for an operator -/

/-- The operators of elementary expressions, apart from the negation and the conditional. -/
theorem applied_of_mem {operator : Operator}
    (member : operator ∈ Operator.constants ∨ operator ∈ Operator.ofOne ∨
      operator ∈ Operator.ofTwo) :
    operator ≠ .diff ∧ operator ∉ [.piecewise, .piece, .otherwise] := by
  have checked : ∀ operator ∈ Operator.constants ++ (Operator.ofOne ++ Operator.ofTwo),
      operator ≠ .diff ∧ operator ∉ [.piecewise, .piece, .otherwise] := by
    decide
  exact checked operator (by simpa only [List.mem_append] using member)

theorem operator?_of_elementary {expr : Expr} (elementary : expr.Elementary) :
    expr.operator? ≠ some .piece := by
  have notPiece {operator : Operator}
      (isApplied : operator ∉ [.piecewise, .piece, .otherwise]) : some operator ≠ some .piece := by
    rintro ⟨rfl⟩
    exact isApplied (by decide)
  cases elementary with
  | constant isConstant => exact notPiece (applied_of_mem (.inl isConstant)).2
  | unary isUnary => exact notPiece (applied_of_mem (.inr (.inl isUnary))).2
  | binary isBinary => exact notPiece (applied_of_mem (.inr (.inr isBinary))).2
  | _ => nofun

theorem application_between (binary : Binary) (left : Profile.Operand) {right : Profile.Operand}
    (present : right.expr.isPresent) :
    cProfile.application binary.operator left right =
      cProfile.between binary.operator (Symbol.binary binary).text left right := by
  cases binary with
  | plus | minus =>
    rw [Binary.operator, Profile.application, if_pos present]
    rfl
  | _ => rfl

/-- The operators between two operands that have no symbol: a function is called for them. -/
def calledOfTwo : List Operator :=
  [.exclusive, .minimum, .maximum, .remainder]

theorem mem_calledOfTwo {operator : Operator} (isBinary : operator ∈ Operator.ofTwo)
    (notWritten : Binary.ofOperator? operator = none) : operator ∈ calledOfTwo := by
  have checked : ∀ operator ∈ Operator.ofTwo,
      Binary.ofOperator? operator = none → operator ∈ calledOfTwo := by
    decide
  exact checked operator isBinary notWritten

/-- The functions that are called in the code of elementary expressions. -/
def called : List Operator :=
  Operator.ofOne ++ calledOfTwo

theorem application_binaryCall {operator : Operator} (isCalled : operator ∈ calledOfTwo)
    (left right : Profile.Operand) :
    cProfile.application operator left right =
      Code.call (functionName operator) [left.code, right.code] := by
  simp only [calledOfTwo, List.mem_cons, List.not_mem_nil, or_false] at isCalled
  rcases isCalled with rfl | rfl | rfl | rfl <;> rfl

theorem application_unaryCall {operator : Operator} (isUnary : operator ∈ Operator.ofOne)
    (argument other : Profile.Operand) :
    cProfile.application operator argument other =
      Code.call (functionName operator) [argument.code] := by
  simp only [Operator.ofOne, List.mem_cons, List.not_mem_nil, or_false] at isUnary
  cases operator <;> simp only [reduceCtorEq, or_false, or_self] at isUnary <;> rfl

theorem chain_of_elementary {rest : Expr} (elementary : rest.Elementary) (first : Profile.Operand)
    (code : String) :
    cProfile.chain first ⟨rest, code⟩ = first.code ++ cProfile.otherwise code := by
  have noPiece := operator?_of_elementary elementary
  have present := isPresent_of_elementary elementary
  simp only [Profile.chain]
  split
  case h_1 => exact absurd present (by decide)
  case h_2 => exact absurd rfl noPiece
  case h_3 => rfl

theorem functionName_isEmitted {operator : Operator} (isCalled : operator ∈ called) :
    (Token.word (functionName operator)).IsEmitted := by
  have checked : ∀ operator ∈ called, IsName (functionName operator).toList ∧
      functionName operator ≠ "sqrt" ∧ 'I' ∉ (functionName operator).toList := by
    decide
  obtain ⟨isName, notRoot, noPlaceholder⟩ := checked operator isCalled
  exact ⟨.name isName, by simpa using notRoot, noPlaceholder⟩

end ComponentModel.CSyntax
