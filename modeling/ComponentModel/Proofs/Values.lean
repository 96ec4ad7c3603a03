import ComponentModel.Proofs.Numerals

/-!
# Values of expressions

The value of an expression in an ordered field. Comparisons and connectives are zero or one, and
everything but zero is true. What variables, named constants and functions mean is left open.

An elementary expression is built from variables, numbers without a sign, named constants, the
operators that a programming language has, functions of one or two arguments, and piecewise
expressions whose first child is a piece.
-/

namespace ComponentModel

variable {K : Type*} [Field K]

/-- A truth value as a number. -/
def truthValue (statement : Prop) [Decidable statement] : K :=
  if statement then 1 else 0

theorem truthValue_ne_zero (statement : Prop) [Decidable statement] :
    truthValue (K := K) statement ≠ 0 ↔ statement := by
  by_cases holds : statement <;> simp [truthValue, holds]

namespace Equation

open Decimal (Numeral literalValue)

/-- What is meant by variables, by named constants and by functions of one or two arguments. -/
structure Interpretation (K : Type*) where
  declaration : Nat → K
  constant : Operator → K
  unary : Operator → K → K
  binary : Operator → K → K → K

variable [LinearOrder K]

/-- The value of an operator. What has one argument takes the left one. -/
def Operator.value (interpretation : Interpretation K) (operator : Operator) (left right : K) : K :=
  match operator with
  | .equal => truthValue (left = right)
  | .unequal => truthValue (left ≠ right)
  | .less => truthValue (left < right)
  | .atMost => truthValue (left ≤ right)
  | .greater => truthValue (left > right)
  | .atLeast => truthValue (left ≥ right)
  | .conjunction => truthValue (left ≠ 0 ∧ right ≠ 0)
  | .disjunction => truthValue (left ≠ 0 ∨ right ≠ 0)
  | .negation => truthValue (left = 0)
  | .plus => left + right
  | .minus => left - right
  | .times => left * right
  | .divide => left / right
  | .truth => 1
  | .falsity => 0
  | .eulerNumber | .pi | .undefined => interpretation.constant operator
  | .exclusive | .minimum | .maximum | .remainder => interpretation.binary operator left right
  | _ => interpretation.unary operator left

/-- The value of an expression. A piece whose condition fails leaves the value to the rest of the
chain, which is undefined where there is no rest. -/
def Expr.value (interpretation : Interpretation K) : Expr → K
  | absent => interpretation.constant .undefined
  | reference declaration => interpretation.declaration declaration
  | number written => literalValue K written
  | apply .piecewise (apply .piece inside condition) rest =>
      if condition.value interpretation ≠ 0 then inside.value interpretation
      else rest.value interpretation
  | apply .piece inside condition =>
      if condition.value interpretation ≠ 0 then inside.value interpretation
      else interpretation.constant .undefined
  | apply .otherwise inside _ => inside.value interpretation
  | apply operator left right =>
      operator.value interpretation (left.value interpretation) (right.value interpretation)

/-- The constants of elementary expressions. -/
def Operator.constants : List Operator :=
  [truth, falsity, eulerNumber, pi, undefined]

/-- The operators and functions of two arguments of elementary expressions. -/
def Operator.ofTwo : List Operator :=
  [plus, minus, times, divide, equal, unequal, less, atMost, greater, atLeast, conjunction,
   disjunction, exclusive, minimum, maximum, remainder]

/-- The functions of one argument of elementary expressions. -/
def Operator.ofOne : List Operator :=
  [absolute, exp, ln, ceiling, floor, sin, cos, tan, sec, csc, cot, sinh, cosh, tanh, sech, csch,
   coth, asin, acos, atan, asec, acsc, acot, asinh, acosh, atanh, asech, acsch, acoth]

/-- An elementary expression. Every piecewise expression in it starts with a piece; the rest of
its chain is missing, a last piece, a value for all other cases, or an expression, such as a
piecewise expression with the remaining pieces. -/
inductive Expr.Elementary : Expr → Prop where
  | reference (declaration : Nat) : Elementary (.reference declaration)
  | number {written : String} (unsigned : (Numeral.ofUnsigned? written.toList).isSome) :
      Elementary (.number written)
  | constant {operator : Operator} (isConstant : operator ∈ Operator.constants) :
      Elementary (.leaf operator)
  | negation {operand : Expr} (elementary : operand.Elementary) :
      Elementary (.apply .negation operand .absent)
  | unary {operator : Operator} (isUnary : operator ∈ Operator.ofOne) {argument : Expr}
      (elementary : argument.Elementary) : Elementary (.apply operator argument .absent)
  | binary {operator : Operator} (isBinary : operator ∈ Operator.ofTwo) {left right : Expr}
      (elementaryLeft : left.Elementary) (elementaryRight : right.Elementary) :
      Elementary (.apply operator left right)
  | lastPiece {inside condition : Expr} (elementary : inside.Elementary)
      (elementaryCondition : condition.Elementary) :
      Elementary (.apply .piecewise (.apply .piece inside condition) .absent)
  | twoPieces {inside condition second secondCondition : Expr} (elementary : inside.Elementary)
      (elementaryCondition : condition.Elementary) (elementarySecond : second.Elementary)
      (elementarySecondCondition : secondCondition.Elementary) :
      Elementary (.apply .piecewise (.apply .piece inside condition)
        (.apply .piece second secondCondition))
  | otherwise {inside condition other : Expr} (elementary : inside.Elementary)
      (elementaryCondition : condition.Elementary) (elementaryOther : other.Elementary) :
      Elementary (.apply .piecewise (.apply .piece inside condition)
        (.apply .otherwise other .absent))
  | chain {inside condition rest : Expr} (elementary : inside.Elementary)
      (elementaryCondition : condition.Elementary) (elementaryRest : rest.Elementary) :
      Elementary (.apply .piecewise (.apply .piece inside condition) rest)

end Equation

end ComponentModel
