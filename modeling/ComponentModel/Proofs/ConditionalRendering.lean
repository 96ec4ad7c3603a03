import ComponentModel.Proofs.PowerRendering
import ComponentModel.Proofs.PythonSyntax.Operands

/-!
# The selection of rendered conditionals

In the default profile for Python, a piecewise expression becomes a conditional: the value of each
piece stands in front of its condition, and the rest of the chain behind it. A piecewise expression
in the rest, or in the value for all other cases, continues the conditional. As the value of a piece
it is written without parentheses, too, so that the condition behind it decides on its last value
only. The code selects the value that the expression selects unless a piecewise expression is the
value of a piece.

The proof is by induction on the expression. What is carried along is that its code is a conditional
of the form that `choice` tells, and an operand if the expression is not piecewise itself: operators
put piecewise operands in parentheses, and calls have them inside their brackets.
-/

namespace ComponentModel

namespace Equation

open Decimal (Numeral)
open PythonSyntax.Conditional (Choice Token)

/-- The functions of one argument, and the sign. -/
def Operator.unary : List Operator :=
  ofOne ++ [negation, minus, root, log]

/-- The operators and functions of two arguments. -/
def Operator.binary : List Operator :=
  power :: ofTwo

namespace Expr

/-- A well-formed expression. The rest of a piecewise expression is missing, a last piece, a value
for all other cases, or the remaining chain. Conditions are no piecewise expressions themselves, and
neither is what a plus sign stands in front of. -/
inductive Formed : Expr → Prop where
  | reference (declaration : Nat) : Formed (reference declaration)
  | number {written : String} (numeral : (Numeral.ofChars? written.toList).isSome) :
      Formed (number written)
  | constant {operator : Operator} (isConstant : operator ∈ .infinity :: Operator.constants) :
      Formed (leaf operator)
  | unary {operator : Operator} (isUnary : operator ∈ Operator.unary) {argument : Expr}
      (formed : argument.Formed) : Formed (apply operator argument absent)
  | positive {operand : Expr} (formed : operand.Formed)
      (isSingle : operand.operator? ≠ some .piecewise) : Formed (apply .plus operand absent)
  | binary {operator : Operator} (isBinary : operator ∈ Operator.binary) {left right : Expr}
      (formedLeft : left.Formed) (formedRight : right.Formed) : Formed (apply operator left right)
  | root {degree radicand : Expr} (formedDegree : degree.Formed)
      (formedRadicand : radicand.Formed) :
      Formed (apply .root (apply .degree degree absent) radicand)
  | log {base argument : Expr} (formedBase : base.Formed) (formedArgument : argument.Formed) :
      Formed (apply .log (apply .logbase base absent) argument)
  | rate (bound : Expr) (declaration : Nat) : Formed (apply .diff bound (reference declaration))
  | lastPiece {value condition : Expr} (formed : value.Formed) (formedCondition : condition.Formed)
      (isTest : condition.operator? ≠ some .piecewise) :
      Formed (apply .piecewise (apply .piece value condition) absent)
  | twoPieces {value condition second secondCondition : Expr} (formed : value.Formed)
      (formedCondition : condition.Formed) (isTest : condition.operator? ≠ some .piecewise)
      (formedSecond : second.Formed) (formedSecondCondition : secondCondition.Formed)
      (isSecondTest : secondCondition.operator? ≠ some .piecewise) :
      Formed (apply .piecewise (apply .piece value condition)
        (apply .piece second secondCondition))
  | otherwise {value condition other : Expr} (formed : value.Formed)
      (formedCondition : condition.Formed) (isTest : condition.operator? ≠ some .piecewise)
      (formedOther : other.Formed) :
      Formed (apply .piecewise (apply .piece value condition) (apply .otherwise other absent))
  | chain {value condition rest : Expr} (formed : value.Formed) (formedCondition : condition.Formed)
      (isTest : condition.operator? ≠ some .piecewise) (formedRest : rest.Formed) :
      Formed (apply .piecewise (apply .piece value condition) rest)

/-- The expression that a nest of piecewise expressions selects, given which conditions hold: the
value of the first piece whose condition holds, else the value for all other cases, else the
undefined value. -/
def selected (holds : Expr → Bool) : Expr → Expr
  | absent => leaf .undefined
  | apply .piecewise (apply .piece value condition) rest =>
      if holds condition then value.selected holds else rest.selected holds
  | apply .piece value condition =>
      if holds condition then value.selected holds else leaf .undefined
  | apply .otherwise value _ => value.selected holds
  | expr => expr

/-- The conditional that is written for a nest of piecewise expressions, given the tokens of the
expressions in it. -/
def choice (read : Expr → List Token) : Expr → Choice
  | absent => .leaf (read (leaf .undefined))
  | apply .piecewise (apply .piece value condition) rest =>
      (value.choice read).before (read condition) (rest.choice read)
  | apply .piece value condition =>
      (value.choice read).before (read condition) (.leaf (read (leaf .undefined)))
  | apply .otherwise value _ => value.choice read
  | expr => .leaf (read expr)

/-- Whether a piecewise expression is the value of a piece in a nest of piecewise expressions. -/
def nestsInPiece : Expr → Bool
  | apply .piecewise first rest => first.nestsInPiece || rest.nestsInPiece
  | apply .piece value _ => value.operator? == some .piecewise
  | apply .otherwise value _ => value.nestsInPiece
  | _ => false

variable {read : Expr → List Token} {expr : Expr}

theorem isPresent_of_formed (formed : expr.Formed) : expr.isPresent := by
  cases formed <;> rfl

/-- The operators of expressions that are no piecewise expressions. -/
theorem applied_of_formed {operator : Operator}
    (member : operator ∈ .infinity :: Operator.constants ∨ operator ∈ Operator.unary ∨
      operator ∈ Operator.binary) :
    operator ∉ [.piecewise, .piece, .otherwise] := by
  have checked : ∀ operator ∈ .infinity :: Operator.constants ++
      (Operator.unary ++ Operator.binary), operator ∉ [.piecewise, .piece, .otherwise] := by
    decide
  exact checked operator (by simpa only [List.mem_append] using member)

theorem operator?_ne_of_applied {operator other : Operator} {left right : Expr}
    (isApplied : operator ∉ [.piecewise, .piece, .otherwise])
    (isOther : other ∈ [Operator.piecewise, .piece, .otherwise]) :
    (apply operator left right).operator? ≠ some other := by
  rintro ⟨rfl⟩
  exact isApplied isOther

/-- A piece is no expression of its own. -/
theorem operator?_of_formed (formed : expr.Formed) : expr.operator? ≠ some .piece := by
  have isPiece : Operator.piece ∈ [Operator.piecewise, .piece, .otherwise] := by decide
  cases formed with
  | constant isConstant =>
      exact operator?_ne_of_applied (applied_of_formed (.inl isConstant)) isPiece
  | unary isUnary =>
      exact operator?_ne_of_applied (applied_of_formed (.inr (.inl isUnary))) isPiece
  | binary isBinary =>
      exact operator?_ne_of_applied (applied_of_formed (.inr (.inr isBinary))) isPiece
  | _ => nofun

/-- Whether an expression is its own only value. -/
structure IsSingle (read : Expr → List Token) (expr : Expr) : Prop where
  choice : expr.choice read = .leaf (read expr)
  selected (holds : Expr → Bool) : expr.selected holds = expr

theorem isSingle_apply {operator : Operator}
    (isApplied : operator ∉ [.piecewise, .piece, .otherwise]) (left right : Expr) :
    IsSingle read (apply operator left right) := by
  cases operator
  case piecewise | piece | otherwise => simp at isApplied
  all_goals exact ⟨rfl, fun _ => rfl⟩

theorem isSingle (formed : expr.Formed) (noNest : expr.operator? ≠ some .piecewise) :
    IsSingle read expr := by
  cases formed with
  | reference | number | positive | root | log | rate => exact ⟨rfl, fun _ => rfl⟩
  | constant isConstant => exact isSingle_apply (applied_of_formed (.inl isConstant)) _ _
  | unary isUnary => exact isSingle_apply (applied_of_formed (.inr (.inl isUnary))) _ _
  | binary isBinary => exact isSingle_apply (applied_of_formed (.inr (.inr isBinary))) _ _
  | lastPiece | twoPieces | otherwise | chain => exact absurd rfl noNest

theorem IsSingle.selected_choice (single : IsSingle read expr) (holds : List Token → Bool) :
    (expr.choice read).selected holds =
      read (expr.selected fun condition => holds (read condition)) := by
  rw [single.choice, single.selected, Choice.selected]

/-- A piece with a single value in front of the rest of a chain. -/
theorem IsSingle.selected_before {value condition : Expr} (single : IsSingle read value)
    {rest : Choice} {other : Expr} {holds : List Token → Bool}
    (isRest : rest.selected holds = read other) :
    ((value.choice read).before (read condition) rest).selected holds =
      read (if holds (read condition) then
        value.selected fun condition => holds (read condition) else other) := by
  rw [single.choice, single.selected, Choice.before, Choice.selected, isRest]
  split <;> rfl

/-- Without a piecewise expression as the value of a piece, the conditional that is written selects
what the expression selects. -/
theorem selected_choice (formed : expr.Formed) (flat : expr.nestsInPiece = false)
    (holds : List Token → Bool) :
    (expr.choice read).selected holds =
      read (expr.selected fun condition => holds (read condition)) := by
  induction formed with
  | lastPiece formed =>
      simp only [nestsInPiece, Bool.or_false, beq_eq_false_iff_ne] at flat
      exact (isSingle formed flat).selected_before rfl
  | twoPieces formed _ _ formedSecond =>
      simp only [nestsInPiece, Bool.or_eq_false_iff, beq_eq_false_iff_ne] at flat
      exact (isSingle formed flat.1).selected_before
        ((isSingle formedSecond flat.2).selected_before rfl)
  | otherwise formed _ _ _ _ _ otherHypothesis =>
      simp only [nestsInPiece, Bool.or_eq_false_iff, beq_eq_false_iff_ne] at flat
      exact (isSingle formed flat.1).selected_before (otherHypothesis flat.2)
  | chain formed _ _ _ _ _ restHypothesis =>
      simp only [nestsInPiece, Bool.or_eq_false_iff, beq_eq_false_iff_ne] at flat
      exact (isSingle formed flat.1).selected_before (restHypothesis flat.2)
  | reference | number | positive | root | log | rate =>
      exact IsSingle.selected_choice ⟨rfl, fun _ => rfl⟩ holds
  | constant isConstant =>
      exact (isSingle_apply (applied_of_formed (.inl isConstant)) _ _).selected_choice holds
  | unary isUnary =>
      exact (isSingle_apply (applied_of_formed (.inr (.inl isUnary))) _ _).selected_choice holds
  | binary isBinary =>
      exact (isSingle_apply (applied_of_formed (.inr (.inr isBinary))) _ _).selected_choice holds

end Expr

end Equation

namespace PythonSyntax.Conditional

open Analysis (AnalysedModel)
open Code (Profile countText grouped)
open Decimal (Numeral)
open Equation (Expr Operator)

/-! ## What is written for an operator -/

section Code

variable {reference : Bool → Nat → String} {expr left right degree radicand base argument : Expr}
  {operator : Operator}

/-- The tokens of the code of an expression. -/
def codeTokens (reference : Bool → Nat → String) (expr : Expr) : List Token :=
  tokens ((Profile.ofKind .python).code reference false expr)

/-- Whether the code of an expression is the conditional of its nest of piecewise expressions, and
an operand if it is no such nest. -/
structure WritesNest (reference : Bool → Nat → String) (expr : Expr) : Prop where
  writes : Writes (pythonProfile.code reference false expr)
    (Reads · (expr.choice (codeTokens reference)))
  operand : expr.operator? ≠ some .piecewise →
    Writes (pythonProfile.code reference false expr) IsOperand

theorem WritesNest.fitsInside (writesNest : WritesNest reference expr) :
    Writes (pythonProfile.code reference false expr) FitsInside :=
  writesNest.writes.mono fun _ reads => reads.fitsInside

theorem WritesNest.single (formed : expr.Formed) (noNest : expr.operator? ≠ some .piecewise)
    (writes : Writes (pythonProfile.code reference false expr) IsOperand) :
    WritesNest reference expr where
  writes := by
    rw [(Expr.isSingle formed noNest).choice]
    exact ⟨.leaf writes.hasForm, writes.noPlaceholder⟩
  operand _ := writes

theorem isLoose_of_piecewise (isPiecewise : expr.operator? = some .piecewise) :
    pythonProfile.isLoose expr := by
  have isConditional : pythonProfile.isConditional expr = true := by
    rw [Profile.isConditional, isPiecewise]
    rfl
  rw [Profile.isLoose, isConditional, Bool.or_true]

/-- A piecewise expression in parentheses is an operand. -/
theorem WritesNest.grouped (writesNest : WritesNest reference expr) {needed : Bool}
    (enough : pythonProfile.isLoose expr → needed) :
    Writes (grouped needed (pythonProfile.code reference false expr)) IsOperand := by
  cases needed with
  | true => exact writesNest.fitsInside.parenthesized
  | false =>
      exact writesNest.operand fun isPiecewise =>
        absurd (enough (isLoose_of_piecewise isPiecewise)) nofun

/-- The operators that are written between their operands. -/
def arithmetic : List Operator :=
  [.plus, .minus, .times, .divide, .power]

theorem leftNeeds_of_loose (isArithmetic : operator ∈ arithmetic)
    (loose : pythonProfile.isLoose left) : pythonProfile.leftNeeds operator left := by
  simp only [arithmetic, List.mem_cons, List.not_mem_nil, or_false] at isArithmetic
  rcases isArithmetic with rfl | rfl | rfl | rfl | rfl <;> simp [Profile.leftNeeds, loose]

theorem rightNeeds_of_loose (isArithmetic : operator ∈ arithmetic)
    (loose : pythonProfile.isLoose right) : pythonProfile.rightNeeds operator left right := by
  simp only [arithmetic, List.mem_cons, List.not_mem_nil, or_false] at isArithmetic
  rcases isArithmetic with rfl | rfl | rfl | rfl | rfl <;>
    simp [Profile.rightNeeds, Profile.divisorNeeds, loose]

theorem application_call (isCalled : operator ∈ .negation :: Operator.ofOne) :
    ∃ word, Writes (pythonProfile.text word) IsClosed ∧ ∀ argument other,
      pythonProfile.application operator argument other =
        Code.call (pythonProfile.text word) [argument.code] := by
  cases operator
  all_goals first
    | simp [Operator.ofOne] at isCalled; done
    | refine ⟨_, ?_, fun _ _ => rfl⟩
      decide

theorem application_callOfTwo (isBinary : operator ∈ Operator.ofTwo)
    (isCalled : operator ∉ arithmetic) :
    ∃ word, Writes (pythonProfile.text word) IsClosed ∧ ∀ left right,
      pythonProfile.application operator left right =
        Code.call (pythonProfile.text word) [left.code, right.code] := by
  cases operator
  all_goals first
    | simp [Operator.ofTwo] at isBinary; done
    | simp [arithmetic] at isCalled; done
    | refine ⟨_, ?_, fun _ _ => rfl⟩
      decide

theorem writes_constant (isConstant : operator ∈ .infinity :: Operator.constants) :
    Writes (pythonProfile.code reference false (.leaf operator)) IsOperand := by
  have checked : ∀ word ∈
      [Code.TextField.infinity, .truth, .falsity, .eulerNumber, .pi, .undefined],
      Writes (pythonProfile.text word) IsOperand := by
    decide
  simp only [Operator.constants, List.mem_cons, List.not_mem_nil, or_false] at isConstant
  rcases isConstant with rfl | rfl | rfl | rfl | rfl | rfl
  all_goals exact checked _ (by decide)

theorem writes_minus (writesNest : WritesNest reference argument) :
    Writes (pythonProfile.code reference false (.apply .minus argument .absent)) IsOperand := by
  have enough : pythonProfile.isLoose argument →
      pythonProfile.isLoose argument || argument.operator? == some .plus ||
        Code.isMinus argument || Code.isNegativeNumber argument :=
    fun loose => by simp [loose]
  exact (writesNest.grouped enough).negative

theorem writes_unary (isUnary : operator ∈ Operator.unary)
    (writesNest : WritesNest reference argument) :
    Writes (pythonProfile.code reference false (.apply operator argument .absent)) IsOperand := by
  have isKind : operator ∈ .negation :: Operator.ofOne ∨ operator = .minus ∨ operator = .root ∨
      operator = .log := by
    simp only [Operator.unary, List.mem_append, List.mem_cons, List.not_mem_nil, or_false]
      at isUnary ⊢
    tauto
  rcases isKind with isCalled | rfl | rfl | rfl
  · have notDiff : operator ≠ .diff := by
      rintro rfl
      exact absurd isCalled (by decide)
    obtain ⟨word, writesWord, isText⟩ := application_call isCalled
    rw [Profile.code_apply _ reference false notDiff, isText]
    exact writesWord.call writesNest.fitsInside
  · exact writes_minus writesNest
  · have writesRoot : Writes "sqrt" IsClosed := by decide
    exact writesRoot.call writesNest.fitsInside
  · have writesLog : Writes "log10" IsClosed := by decide
    exact writesLog.call writesNest.fitsInside

theorem writes_power (writesBase : WritesNest reference base)
    (writesExponent : WritesNest reference right) :
    Writes (pythonProfile.code reference false (.apply .power base right)) IsOperand := by
  cases isHalf : Code.denotes (pythonProfile.code reference false right) 0.5 with
  | true =>
      have isText : pythonProfile.code reference false (.apply .power base right) =
          Code.call "sqrt" [pythonProfile.code reference false base] :=
        if_pos isHalf
      rw [isText]
      exact .call (by decide) writesBase.fitsInside
  | false =>
      rw [code_power isHalf]
      exact (writesBase.grouped (leftNeeds_of_loose (by decide))).between (by decide)
        (writesExponent.grouped (rightNeeds_of_loose (by decide)))

theorem writes_binary (isBinary : operator ∈ Operator.binary) (present : right.isPresent)
    (writesLeft : WritesNest reference left) (writesRight : WritesNest reference right) :
    Writes (pythonProfile.code reference false (.apply operator left right)) IsOperand := by
  by_cases isArithmetic : operator ∈ arithmetic
  · have basic (written : CSyntax.Signed.Basic) : Writes (pythonProfile.code reference false
        (.apply written.binary.operator left right)) IsOperand := by
      have isArithmetic : written.binary.operator ∈ arithmetic := by cases written <;> decide
      rw [Profile.code_basic .python reference written left present]
      refine (writesLeft.grouped (leftNeeds_of_loose isArithmetic)).between ?_
        (writesRight.grouped (rightNeeds_of_loose isArithmetic))
      cases written <;> decide
    simp only [arithmetic, List.mem_cons, List.not_mem_nil, or_false] at isArithmetic
    rcases isArithmetic with rfl | rfl | rfl | rfl | rfl
    · exact basic .plus
    · exact basic .minus
    · exact basic .times
    · exact basic .divide
    · exact writes_power writesLeft writesRight
  · have isCalled : operator ∈ Operator.ofTwo := by
      refine (List.mem_cons.mp isBinary).resolve_left ?_
      rintro rfl
      exact isArithmetic (by decide)
    have notDiff : operator ≠ .diff := by
      rintro rfl
      exact absurd isCalled (by decide)
    obtain ⟨word, writesWord, isText⟩ := application_callOfTwo isCalled isArithmetic
    rw [Profile.code_apply _ reference false notDiff, isText]
    exact writesWord.callOfTwo writesLeft.fitsInside writesRight.fitsInside

theorem writes_root (present : radicand.isPresent) (writesDegree : WritesNest reference degree)
    (writesRadicand : WritesNest reference radicand) :
    Writes (pythonProfile.code reference false
      (.apply .root (.apply .degree degree .absent) radicand)) IsOperand := by
  cases isTwo : Code.denotes (pythonProfile.code reference false degree) 2.0 with
  | true =>
      have isText : pythonProfile.code reference false
          (.apply .root (.apply .degree degree .absent) radicand) =
            Code.call "sqrt" [pythonProfile.code reference false radicand] :=
        (if_pos present).trans (if_pos isTwo)
      rw [isText]
      exact .call (by decide) writesRadicand.fitsInside
  | false =>
      have writesOne : Writes "1.0" IsOperand := by decide
      rw [code_root present isTwo]
      refine (writesRadicand.grouped (leftNeeds_of_loose (by decide))).between (by decide) ?_
      refine (writesOne.between (by decide) ?_).fitsInside.parenthesized
      exact writesDegree.grouped fun loose => by simp [loose]

theorem writes_log (present : argument.isPresent) (writesBase : WritesNest reference base)
    (writesArgument : WritesNest reference argument) :
    Writes (pythonProfile.code reference false
      (.apply .log (.apply .logbase base .absent) argument)) IsOperand := by
  have isText : pythonProfile.code reference false
      (.apply .log (.apply .logbase base .absent) argument) =
        if Code.denotes (pythonProfile.code reference false base) 10.0 then
          Code.call "log10" [pythonProfile.code reference false argument]
        else
          Code.call "log" [pythonProfile.code reference false argument] ++ "/" ++
            Code.call "log" [pythonProfile.code reference false base] :=
    if_pos present
  rw [isText]
  split
  case isTrue => exact .call (by decide) writesArgument.fitsInside
  case isFalse =>
      have writesName : Writes "log" IsClosed := by decide
      exact (writesName.call writesArgument.fitsInside).between (by decide)
        (writesName.call writesBase.fitsInside)

/-! ## Pieces -/

theorem pythonProfile_piece {condition value : String} (noPlaceholder : 'I' ∉ condition.toList) :
    pythonProfile.piece value condition = value ++ " if " ++ condition := by
  have filledCondition : Text.fill "<IF_STATEMENT> if <CONDITION>" "<CONDITION>" condition =
      "<IF_STATEMENT>" ++ (" if " ++ condition) := by
    rw [← String.toList_inj]
    simp [Text.fill, Text.fillChars]
  have filledValue (behind : String) :
      Text.fill ("<IF_STATEMENT>" ++ behind) "<IF_STATEMENT>" value =
        value ++ Text.fill behind "<IF_STATEMENT>" value := by
    rw [← String.toList_inj]
    simp [Text.fill, Text.fillChars]
  have noMark : 'I' ∉ (" if " ++ condition).toList := by simpa using noPlaceholder
  have kept : Text.fill (" if " ++ condition) "<IF_STATEMENT>" value = " if " ++ condition := by
    have filledRest : Text.fill "" "<IF_STATEMENT>" value = "" := rfl
    have keptFront : Text.fill (" if " ++ condition ++ "") "<IF_STATEMENT>" value =
        " if " ++ condition ++ Text.fill "" "<IF_STATEMENT>" value :=
      Text.fill_append value rfl noMark (by decide)
    simpa [filledRest] using keptFront
  calc pythonProfile.piece value condition
    _ = Text.fill (Text.fill "<IF_STATEMENT> if <CONDITION>" "<CONDITION>" condition)
          "<IF_STATEMENT>" value := rfl
    _ = value ++ Text.fill (" if " ++ condition) "<IF_STATEMENT>" value := by
      rw [filledCondition, filledValue]
    _ = value ++ " if " ++ condition := by rw [kept, String.append_assoc]

theorem pythonProfile_otherwise (value : String) :
    pythonProfile.otherwise value = " else " ++ value := by
  rw [← String.toList_inj]
  calc (pythonProfile.otherwise value).toList
    _ = (Text.fill " else <ELSE_STATEMENT>" "<ELSE_STATEMENT>" value).toList := rfl
    _ = (" else " ++ value).toList := by simp [Text.fill, Text.fillChars]

theorem chain_of_formed (formed : expr.Formed) (first : Profile.Operand) (rest : String) :
    pythonProfile.chain first ⟨expr, rest⟩ = first.code ++ pythonProfile.otherwise rest := by
  have present := Expr.isPresent_of_formed formed
  have noPiece := Expr.operator?_of_formed formed
  simp only [Profile.chain]
  split
  case h_1 => exact absurd present (by decide)
  case h_2 => exact absurd rfl noPiece
  case h_3 => rfl

/-- The last piece of a chain, or one in front of the rest of it. -/
theorem writes_choice {value condition : Expr} {rest : String} {choice : Choice}
    (writesValue : WritesNest reference value)
    (writesCondition : Writes (pythonProfile.code reference false condition) IsOperand)
    (writesRest : Writes rest (Reads · choice)) :
    Writes (pythonProfile.piece (pythonProfile.code reference false value)
        (pythonProfile.code reference false condition) ++ pythonProfile.otherwise rest)
      (Reads · ((value.choice (codeTokens reference)).before (codeTokens reference condition)
        choice)) := by
  have isIf : tokens " if " = [.word "if"] := by decide
  have isElse : tokens " else " = [.word "else"] := by decide
  rw [pythonProfile_piece writesCondition.noPlaceholder, pythonProfile_otherwise]
  refine ⟨?_, ?_⟩
  · rw [← String.append_assoc, tokens_between _ (by decide), tokens_between _ (by decide), isIf,
      isElse]
    simpa [codeTokens] using
      writesValue.writes.hasForm.before writesCondition.hasForm writesRest.hasForm
  · simp [writesValue.writes.noPlaceholder, writesCondition.noPlaceholder, writesRest.noPlaceholder]

theorem WritesNest.nest {value rest : Expr} {text : String}
    (isText : pythonProfile.code reference false (.apply .piecewise value rest) = text)
    (writes : Writes text
      (Reads · ((Expr.apply .piecewise value rest).choice (codeTokens reference)))) :
    WritesNest reference (.apply .piecewise value rest) where
  writes := isText ▸ writes
  operand noNest := absurd rfl noNest

/-- The code of a well-formed expression is that of its nest. -/
theorem writesNest_of_formed
    (writesReference : ∀ rate declaration, Writes (reference rate declaration) IsOperand)
    (formed : expr.Formed) : WritesNest reference expr := by
  have isNest : Operator.piecewise ∈ [Operator.piecewise, .piece, .otherwise] := by decide
  have writesUndefined : Writes "nan" IsOperand := by decide
  have readsUndefined : Writes "nan" (Reads · (.leaf (codeTokens reference (.leaf .undefined)))) :=
    ⟨.leaf writesUndefined.hasForm, writesUndefined.noPlaceholder⟩
  induction formed with
  | reference declaration =>
      exact .single (.reference declaration) nofun (writesReference false declaration)
  | number numeral => exact .single (.number numeral) nofun (writes_number numeral)
  | constant isConstant =>
      have isApplied := Expr.applied_of_formed (.inl isConstant)
      exact .single (.constant isConstant) (Expr.operator?_ne_of_applied isApplied isNest)
        (writes_constant isConstant)
  | unary isUnary formed writesArgument =>
      have isApplied := Expr.applied_of_formed (.inr (.inl isUnary))
      exact .single (.unary isUnary formed) (Expr.operator?_ne_of_applied isApplied isNest)
        (writes_unary isUnary writesArgument)
  | positive formed isSingle writesOperand =>
      exact .single (.positive formed isSingle) nofun (writesOperand.operand isSingle)
  | binary isBinary formedLeft formedRight writesLeft writesRight =>
      have isApplied := Expr.applied_of_formed (.inr (.inr isBinary))
      exact .single (.binary isBinary formedLeft formedRight)
        (Expr.operator?_ne_of_applied isApplied isNest)
        (writes_binary isBinary (Expr.isPresent_of_formed formedRight) writesLeft writesRight)
  | root formedDegree formedRadicand writesDegree writesRadicand =>
      exact .single (.root formedDegree formedRadicand) nofun
        (writes_root (Expr.isPresent_of_formed formedRadicand) writesDegree writesRadicand)
  | log formedBase formedArgument writesBase writesArgument =>
      exact .single (.log formedBase formedArgument) nofun
        (writes_log (Expr.isPresent_of_formed formedArgument) writesBase writesArgument)
  | rate bound declaration =>
      exact .single (.rate bound declaration) nofun (writesReference true declaration)
  | lastPiece _ _ isTest writesValue writesCondition =>
      exact .nest rfl (writes_choice writesValue (writesCondition.operand isTest) readsUndefined)
  | twoPieces _ _ isTest _ _ isSecondTest writesValue writesCondition writesSecond
      writesSecondCondition =>
      exact .nest rfl (writes_choice writesValue (writesCondition.operand isTest)
        (writes_choice writesSecond (writesSecondCondition.operand isSecondTest) readsUndefined))
  | otherwise _ _ isTest _ writesValue writesCondition writesOther =>
      exact .nest rfl
        (writes_choice writesValue (writesCondition.operand isTest) writesOther.writes)
  | chain _ _ isTest formedRest writesValue writesCondition writesRest =>
      exact .nest (chain_of_formed formedRest _ _)
        (writes_choice writesValue (writesCondition.operand isTest) writesRest.writes)

end Code

/-! ## The code of a model -/

/-- The text that a nest of piecewise expressions has in the Python code of a model is a conditional
in one way only: the one in which the value of a piece, being a piecewise expression itself, goes on
in front of the condition of the piece. If no piecewise expression is the value of a piece, this
conditional selects the code of the expression that the nest selects, whichever conditions hold. -/
theorem nest_code_selects (analysed : AnalysedModel) {expr : Expr} (formed : expr.Formed) :
    let read := codeTokens ((Profile.ofKind .python).referenceText analysed)
    (∀ choice, Reads (read expr) choice ↔ choice = expr.choice read) ∧
    (expr.nestsInPiece = false → ∀ holds : List Token → Bool,
      (expr.choice read).selected holds =
        read (expr.selected fun condition => holds (read condition))) := by
  intro read
  have reads := (writesNest_of_formed (writes_reference analysed) formed).writes.hasForm
  refine ⟨fun choice => ⟨fun other => other.unique reads, fun isChoice => isChoice ▸ reads⟩, ?_⟩
  exact fun flat holds => Expr.selected_choice formed flat holds

/-- The comparison of two constants. -/
def isLess (left right : Nat) : Expr :=
  .apply .less (.reference left) (.reference right)

theorem isLess_formed (left right : Nat) : (isLess left right).Formed :=
  .binary (by decide) (.reference left) (.reference right)

/-- Only the second of three constants is less than the one behind it. -/
def onlySecond (condition : List Token) : Bool :=
  condition == tokens "lt_func(variables[1], variables[2])"

/-- A piece with `a`, and for all other cases a piecewise expression with `b`. -/
def nestOtherwise : Expr :=
  .apply .piecewise (.apply .piece (.reference 0) (isLess 0 1))
    (.apply .otherwise
      (.apply .piecewise (.apply .piece (.reference 1) (isLess 1 2)) .absent) .absent)

theorem nestOtherwise_selects :
    nestOtherwise.Formed ∧ nestOtherwise.nestsInPiece = false ∧
      ∃ choice,
        Reads
          (tokens ("variables[0] if lt_func(variables[0], variables[1])" ++
            " else variables[1] if lt_func(variables[1], variables[2]) else nan")) choice ∧
        choice.selected onlySecond = tokens "variables[1]" := by
  have formed : nestOtherwise.Formed :=
    .otherwise (.reference 0) (isLess_formed 0 1) nofun
      (.lastPiece (.reference 1) (isLess_formed 1 2) nofun)
  have isText : pythonProfile.code (pythonProfile.referenceText CSyntax.threeConstants) false
      nestOtherwise = "variables[0] if lt_func(variables[0], variables[1])" ++
        " else variables[1] if lt_func(variables[1], variables[2]) else nan" := by
    decide +kernel
  obtain ⟨reads, selects⟩ := nest_code_selects CSyntax.threeConstants formed
  refine ⟨formed, rfl, _, isText ▸ (reads _).mpr rfl, (selects rfl onlySecond).trans ?_⟩
  decide +kernel

/-- A piecewise expression with `a` and `b` as the value of a piece, and `c` for all other cases. -/
def nestInPiece : Expr :=
  .apply .piecewise
    (.apply .piece
      (.apply .piecewise (.apply .piece (.reference 0) (isLess 1 2))
        (.apply .otherwise (.reference 1) .absent))
      (isLess 0 1))
    (.apply .otherwise (.reference 2) .absent)

/-- The condition of the inner piece is decided first, even if that of the outer one does not
hold. -/
theorem nestInPiece_misselects :
    nestInPiece.Formed ∧
      (Profile.ofKind .python).code
          ((Profile.ofKind .python).referenceText CSyntax.threeConstants) false nestInPiece =
        "variables[0] if lt_func(variables[1], variables[2])" ++
          " else variables[1] if lt_func(variables[0], variables[1]) else variables[2]" ∧
      (nestInPiece.selected fun condition => onlySecond
        (codeTokens ((Profile.ofKind .python).referenceText CSyntax.threeConstants) condition)) =
          .reference 2 ∧
      ∀ choice,
        Reads
          (tokens ("variables[0] if lt_func(variables[1], variables[2])" ++
            " else variables[1] if lt_func(variables[0], variables[1]) else variables[2]")) choice →
        choice.selected onlySecond = tokens "variables[0]" ∧
          choice.selected onlySecond ≠ tokens "variables[2]" := by
  have formed : nestInPiece.Formed :=
    .otherwise (.otherwise (.reference 0) (isLess_formed 1 2) nofun (.reference 1))
      (isLess_formed 0 1) nofun (.reference 2)
  have isText : pythonProfile.code (pythonProfile.referenceText CSyntax.threeConstants) false
      nestInPiece = "variables[0] if lt_func(variables[1], variables[2])" ++
        " else variables[1] if lt_func(variables[0], variables[1]) else variables[2]" := by
    decide +kernel
  have reads := (writesNest_of_formed (writes_reference CSyntax.threeConstants)
    formed).writes.hasForm
  rw [isText] at reads
  refine ⟨formed, isText, by decide +kernel, fun choice other => ?_⟩
  have isSelected : choice.selected onlySecond = tokens "variables[0]" := by
    rw [other.unique reads]
    decide +kernel
  exact ⟨isSelected, by rw [isSelected]; decide +kernel⟩

end PythonSyntax.Conditional

end ComponentModel
