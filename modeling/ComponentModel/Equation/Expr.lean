import ComponentModel.Decimal.Numeral
import ComponentModel.Decimal.Binary
import ComponentModel.Equation.Operator

/-!
# Expressions

An equation is a binary tree. Applications of more than two arguments nest to the right with the
operator repeated. The children of the constructs that are no plain operators are:

* an assignment has its two sides;
* a derivative has the bound variable on the left and the differentiated variable on the right;
* a bound variable has the variable on the left and a degree, if any, on the right;
* a root or logarithm with a qualifier has the qualifier on the left;
* a piecewise expression has its first piece on the left and the rest of the chain on the right;
* a piece has its value on the left and its condition on the right.
-/

namespace ComponentModel.Equation

/-- An expression. References to variables carry the number of the declaration. -/
inductive Expr where
  /-- No expression: a child that is not there. -/
  | absent
  | reference (declaration : Nat)
  /-- A number as it is written. -/
  | number (text : String)
  | apply (operator : Operator) (left right : Expr)
  deriving Repr, DecidableEq

namespace Expr

/-- Whether there is an expression. -/
def isPresent : Expr → Bool
  | absent => false
  | _ => true

/-- The outermost operator. -/
def operator? : Expr → Option Operator
  | apply operator _ _ => some operator
  | _ => none

/-- Whether an expression is an operator on two arguments. -/
def isBinary (wanted : Operator) : Expr → Bool
  | apply operator _ right => operator == wanted && right.isPresent
  | _ => false

/-- An operator without children. -/
def leaf (operator : Operator) : Expr :=
  .apply operator .absent .absent

/-- A product. -/
def times (factor : String) (expr : Expr) : Expr :=
  .apply .times (.number factor) expr

/-- The number of nodes. -/
def size : Expr → Nat
  | absent => 0
  | reference _ => 1
  | number _ => 1
  | apply _ left right => left.size + right.size + 1

/-- Whether an operator occurs. -/
def uses (wanted : Operator) : Expr → Bool
  | absent => false
  | reference _ => false
  | number _ => false
  | apply operator left right => operator == wanted || left.uses wanted || right.uses wanted

/-- The expression on one line, every application in parentheses. -/
def text : Expr → String
  | absent => "_"
  | reference declaration => "ci#" ++ toString declaration
  | number written => "cn(" ++ written ++ ")"
  | apply operator absent absent => operator.label
  | apply operator left absent => "(" ++ operator.label ++ " " ++ left.text ++ ")"
  | apply operator left right =>
      "(" ++ operator.label ++ " " ++ left.text ++ " " ++ right.text ++ ")"

/-- What a derivative says about a variable. -/
inductive Finding where
  | integrationVariable (declaration : Nat)
  | state (declaration : Nat)
  /-- The variable is differentiated more than once, or a broken number of times. -/
  | notFirstOrder (declaration : Nat)
  deriving Repr, DecidableEq

/-- Whether the text of a degree denotes the number one. -/
def isFirstDegree (written : String) : Bool :=
  match Decimal.read? written with
  | some degree => Decimal.approx degree 1.0
  | none => false

/-- The findings of an expression, parents before their children. `above` holds the operators
above the expression, the innermost first, each with its right child. -/
def findingsBelow (above : List (Operator × Expr)) : Expr → List Finding
  | absent => []
  | reference declaration =>
      match above with
      | (.bvar, _) :: (.diff, _) :: _ => [.integrationVariable declaration]
      | (.diff, _) :: _ => [.state declaration]
      | _ => []
  | number written =>
      match above with
      | (.degree, _) :: (.bvar, _) :: (.diff, .reference declaration) :: _ =>
          if isFirstDegree written then [] else [.notFirstOrder declaration]
      | _ => []
  | apply operator left right =>
      left.findingsBelow ((operator, right) :: above) ++
        right.findingsBelow ((operator, right) :: above)

/-- The findings of an equation. -/
def findings (expr : Expr) : List Finding :=
  expr.findingsBelow []

end Expr

end ComponentModel.Equation
