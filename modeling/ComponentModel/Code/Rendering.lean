import ComponentModel.Code.Profile
import ComponentModel.Equation.Expr
import ComponentModel.Text

/-!
# Rendering of expressions

An expression becomes text by the words of a profile. Operands are put in parentheses where the
operators of the language would otherwise bind differently; an operator that the language lacks
is called as a function, and its arguments need no parentheses.
-/

namespace ComponentModel.Code

open Equation (Expr Operator MathFunction)

/-- A number as the language reads it as a double: a point is added unless there is one. -/
def doubleText (written : String) : String :=
  let characters := written.toList
  if characters.contains '.' then
    written
  else
    let isDigit (character : Char) : Bool := character != 'e' && character != 'E'
    String.ofList (characters.takeWhile isDigit ++ ".0".toList ++ characters.dropWhile isDigit)

/-- A text in parentheses. -/
def parenthesized (code : String) : String :=
  "(" ++ code ++ ")"

/-- A text in parentheses where they are needed. -/
def grouped (needed : Bool) (code : String) : String :=
  if needed then parenthesized code else code

/-- A function call. -/
def call (function : String) (arguments : List String) : String :=
  function ++ "(" ++ ", ".intercalate arguments ++ ")"

/-- Whether a text is a number close to a value. -/
def denotes (code : String) (value : Float) : Bool :=
  match Decimal.read? code with
  | some number => Decimal.approx number value
  | none => false

/-- The flag for a comparison. -/
def comparisonFlag? : Operator → Option FlagField
  | .equal => some .equal
  | .unequal => some .unequal
  | .less => some .less
  | .atMost => some .atMost
  | .greater => some .greater
  | .atLeast => some .atLeast
  | _ => none

/-- The flag for a connective of two truth values. -/
def connectiveFlag? : Operator → Option FlagField
  | .conjunction => some .conjunction
  | .disjunction => some .disjunction
  | .exclusive => some .exclusive
  | _ => none

/-- The flag for an operator that the language may have of its own. -/
def nativeFlag? (function : MathFunction) : Option FlagField :=
  match function with
  | .negation => some .negation
  | other => (comparisonFlag? other.operator).orElse fun _ => connectiveFlag? other.operator

/-- The text for a function of one argument. -/
def functionText? : Operator → Option TextField
  | .absolute => some .absolute
  | .exp => some .exp
  | .ln => some .ln
  | .ceiling => some .ceiling
  | .floor => some .floor
  | .sin => some .sin
  | .cos => some .cos
  | .tan => some .tan
  | .sec => some .sec
  | .csc => some .csc
  | .cot => some .cot
  | .sinh => some .sinh
  | .cosh => some .cosh
  | .tanh => some .tanh
  | .sech => some .sech
  | .csch => some .csch
  | .coth => some .coth
  | .asin => some .asin
  | .acos => some .acos
  | .atan => some .atan
  | .asec => some .asec
  | .acsc => some .acsc
  | .acot => some .acot
  | .asinh => some .asinh
  | .acosh => some .acosh
  | .atanh => some .atanh
  | .asech => some .asech
  | .acsch => some .acsch
  | .acoth => some .acoth
  | _ => none

namespace Profile

/-- The function that stands in for an operator, if the profile has one and the language needs
it. -/
def helper? (profile : Profile) (function : MathFunction) : Option HelperFunction :=
  let native := match nativeFlag? function with
    | some flag => profile.flag flag
    | none => false
  let helper := profile.function function
  if native || helper.implementation == "" then none else some helper

/-- Whether an expression is an operator that the language has. -/
def isNative (profile : Profile) (flag? : Operator → Option FlagField) (expr : Expr) : Bool :=
  match expr.operator?.bind flag? with
  | some flag => profile.flag flag
  | none => false

/-- Whether an expression is a comparison by an operator. -/
def isComparison (profile : Profile) (expr : Expr) : Bool :=
  profile.isNative comparisonFlag? expr

/-- Whether an expression is a connective written as an operator. -/
def isConnective (profile : Profile) (expr : Expr) : Bool :=
  profile.isNative connectiveFlag? expr

/-- Whether an expression is a piecewise expression written as a conditional. -/
def isConditional (profile : Profile) (expr : Expr) : Bool :=
  expr.operator? == some .piecewise && profile.flag .conditional

/-- Whether an expression is a power or a root written with the power operator. -/
def isPower (profile : Profile) (expr : Expr) : Bool :=
  (expr.operator? == some .power || expr.operator? == some .root) && profile.flag .power

/-- Whether an expression needs parentheses as an operand of any arithmetic operator. -/
def isLoose (profile : Profile) (expr : Expr) : Bool :=
  profile.isComparison expr || profile.isConnective expr || profile.isConditional expr

end Profile

/-- Whether an expression is a sum or a difference. -/
def isAdditive (expr : Expr) : Bool :=
  expr.isBinary .plus || expr.isBinary .minus

/-- Whether an expression is a product or a quotient. -/
def isMultiplicative (expr : Expr) : Bool :=
  expr.operator? == some .times || expr.operator? == some .divide

/-- Whether an expression is a difference or a negative value. -/
def isMinus (expr : Expr) : Bool :=
  expr.operator? == some .minus

/-- Whether an expression is a number that starts with a minus sign. -/
def isNegativeNumber : Expr → Bool
  | .number written => written.toList.head? == some '-'
  | _ => false

/-- The expression inside a degree or the base of a logarithm. -/
def unqualified : Expr → Expr
  | .apply .degree inner _ => inner
  | .apply .logbase inner _ => inner
  | expr => expr

namespace Profile

/-- Whether an operand of a connective needs parentheses. Connectives of one kind chain. -/
def operandNeeds (profile : Profile) (operator : Operator) (operand : Expr) : Bool :=
  profile.isComparison operand ||
    (profile.isConnective operand && operand.operator? != some operator) ||
    profile.isConditional operand || isAdditive operand || profile.isPower operand

/-- Whether a divisor needs parentheses. -/
def divisorNeeds (profile : Profile) (divisor : Expr) : Bool :=
  profile.isLoose divisor || isMultiplicative divisor || isAdditive divisor

/-- Whether the left operand of an operator needs parentheses. -/
def leftNeeds (profile : Profile) (operator : Operator) (left : Expr) : Bool :=
  match operator with
  | .equal | .unequal | .less | .atMost | .greater | .atLeast | .plus | .minus =>
      profile.isLoose left
  | .times | .divide => profile.isLoose left || isAdditive left
  | .conjunction | .disjunction | .exclusive => profile.operandNeeds operator left
  | .power =>
      profile.isLoose left || isMinus left || isMultiplicative left || left.isBinary .plus
  | _ => false

/-- Whether the right operand of an operator needs parentheses. -/
def rightNeeds (profile : Profile) (operator : Operator) (left right : Expr) : Bool :=
  match operator with
  | .equal | .unequal | .less | .atMost | .greater | .atLeast | .plus => profile.isLoose right
  | .minus =>
      profile.isLoose right || isMinus right || right.isBinary .plus || isNegativeNumber right
  | .times => profile.isLoose right || isAdditive right
  | .divide => profile.divisorNeeds right
  | .conjunction | .disjunction | .exclusive => profile.operandNeeds operator right
  | .power =>
      profile.isLoose right || isMinus left || isMultiplicative right || profile.isPower right ||
        right.isBinary .plus
  | _ => false

/-- The text of an expression as it is needed where its parent stands. -/
structure Operand where
  expr : Expr
  code : String

/-- Two operands with an operator between them. -/
def between (profile : Profile) (operator : Operator) (word : String) (left right : Operand) :
    String :=
  grouped (profile.leftNeeds operator left.expr) left.code ++ word ++
    grouped (profile.rightNeeds operator left.expr right.expr) right.code

/-- A comparison or connective: between its operands if the language has it, a call otherwise. -/
def relation (profile : Profile) (operator : Operator) (flag : FlagField) (word : TextField)
    (left right : Operand) : String :=
  if profile.flag flag then
    profile.between operator (profile.text word) left right
  else
    call (profile.text word) [left.code, right.code]

/-- A negation. -/
def negation (profile : Profile) (operand : Operand) : String :=
  let word := profile.text .negation
  if profile.flag .negation then
    word ++ grouped (profile.isLoose operand.expr || isAdditive operand.expr ||
      isMultiplicative operand.expr || profile.isPower operand.expr) operand.code
  else
    call word [operand.code]

/-- A minus sign in front of an operand. -/
def negative (profile : Profile) (operand : Operand) : String :=
  profile.text .minus ++
    grouped (profile.isLoose operand.expr || operand.expr.operator? == some .plus ||
      isMinus operand.expr || isNegativeNumber operand.expr) operand.code

/-- A power. Square roots and squares have functions of their own. -/
def power (profile : Profile) (base exponent : Operand) : String :=
  if denotes exponent.code 0.5 then
    call (profile.text .squareRoot) [base.code]
  else if denotes exponent.code 2.0 && profile.text .square != "" then
    call (profile.text .square) [base.code]
  else if profile.flag .power then
    profile.between .power (profile.text .power) base exponent
  else
    call (profile.text .power) [base.code, exponent.code]

/-- A root with a degree: a power with the inverse of the degree as exponent. -/
def root (profile : Profile) (degree radicand : Operand) : String :=
  let inner := unqualified degree.expr
  if denotes degree.code 2.0 then
    call (profile.text .squareRoot) [radicand.code]
  else if profile.flag .power then
    let base := radicand.expr
    grouped (profile.isLoose base || isMinus base || isMultiplicative base ||
        base.isBinary .plus) radicand.code ++
      profile.text .power ++ "(1.0" ++ profile.text .divide ++
      grouped (profile.isLoose inner || isMinus inner || isMultiplicative inner ||
        profile.isPower inner || inner.isBinary .plus) degree.code ++ ")"
  else
    call (profile.text .power) [radicand.code,
      "1.0" ++ profile.text .divide ++ grouped (profile.divisorNeeds inner) degree.code]

/-- A logarithm with a base: a quotient of natural logarithms, unless the base is ten. -/
def logarithm (profile : Profile) (base argument : Operand) : String :=
  if denotes base.code 10.0 then
    call (profile.text .commonLogarithm) [argument.code]
  else
    call (profile.text .ln) [argument.code] ++ profile.text .divide ++
      call (profile.text .ln) [base.code]

/-- A piece of a piecewise expression. -/
def piece (profile : Profile) (value condition : String) : String :=
  Text.fillAll
    (profile.text (if profile.flag .conditional then .conditionalIf else .piecewiseIf))
    [("<CONDITION>", condition), ("<IF_STATEMENT>", value)]

/-- What follows a piece. -/
def otherwise (profile : Profile) (value : String) : String :=
  Text.fill (profile.text (if profile.flag .conditional then .conditionalElse else .piecewiseElse))
    "<ELSE_STATEMENT>" value

/-- A piece and the rest of the chain. Without a last value the chain ends undefined. -/
def chain (profile : Profile) (first rest : Operand) : String :=
  let undefined := profile.text .undefined
  first.code ++
    match rest.expr with
    | .absent => profile.otherwise undefined
    | .apply .piece _ _ => profile.otherwise (rest.code ++ profile.otherwise undefined)
    | _ => profile.otherwise rest.code

/-- An operator on children that are rendered already. -/
def application (profile : Profile) (operator : Operator) (left right : Operand) : String :=
  match operator with
  | .assignment => profile.between .assignment (profile.text .assignment) left right
  | .equal => profile.relation .equal .equal .equal left right
  | .unequal => profile.relation .unequal .unequal .unequal left right
  | .less => profile.relation .less .less .less left right
  | .atMost => profile.relation .atMost .atMost .atMost left right
  | .greater => profile.relation .greater .greater .greater left right
  | .atLeast => profile.relation .atLeast .atLeast .atLeast left right
  | .conjunction => profile.relation .conjunction .conjunction .conjunction left right
  | .disjunction => profile.relation .disjunction .disjunction .disjunction left right
  | .exclusive => profile.relation .exclusive .exclusive .exclusive left right
  | .negation => profile.negation left
  | .plus =>
      if right.expr.isPresent then profile.between .plus (profile.text .plus) left right
      else left.code
  | .minus =>
      if right.expr.isPresent then profile.between .minus (profile.text .minus) left right
      else profile.negative left
  | .times => profile.between .times (profile.text .times) left right
  | .divide => profile.between .divide (profile.text .divide) left right
  | .power => profile.power left right
  | .root =>
      if right.expr.isPresent then profile.root left right
      else call (profile.text .squareRoot) [left.code]
  | .log =>
      if right.expr.isPresent then profile.logarithm left right
      else call (profile.text .commonLogarithm) [left.code]
  | .minimum => call (profile.text .minimum) [left.code, right.code]
  | .maximum => call (profile.text .maximum) [left.code, right.code]
  | .remainder => call (profile.text .remainder) [left.code, right.code]
  | .diff => right.code
  | .piecewise => profile.chain left right
  | .piece => profile.piece left.code right.code
  | .otherwise | .degree | .logbase | .bvar => left.code
  | .truth => profile.text .truth
  | .falsity => profile.text .falsity
  | .eulerNumber => profile.text .eulerNumber
  | .pi => profile.text .pi
  | .infinity => profile.text .infinity
  | .undefined => profile.text .undefined
  | function =>
      match functionText? function with
      | some word => call (profile.text word) [left.code]
      | none => ""

/-- The text of an expression. `reference` is the text of a declaration, of its rate where it is
directly inside a derivative. -/
def code (profile : Profile) (reference : (rate : Bool) → Nat → String) (rate : Bool) :
    Expr → String
  | .absent => ""
  | .reference declaration => reference rate declaration
  | .number written => doubleText written
  | .apply operator left right =>
      profile.application operator
        ⟨left, profile.code reference (operator == .diff) left⟩
        ⟨right, profile.code reference (operator == .diff) right⟩

end Profile

end ComponentModel.Code
