import ComponentModel.Equation.Expr

/-!
# Scaling of references

The value of a class of equivalent variables is kept in the units of one of its declarations. An
equation that refers to another declaration of the class means the value in the units of that
declaration, so the reference is multiplied by the factor between the two. The rate of a variable
is divided by the factor of the variable of integration; on the left-hand side of an equation the
right-hand side is multiplied instead.
-/

namespace ComponentModel.Equation

/-- A factor different from one and its reciprocal, as they are written. -/
structure Factor where
  text : String
  reciprocal : String
  deriving Repr, DecidableEq

/-- The factor of each declaration; none where it is one. -/
abbrev FactorRule := Nat → Option Factor

namespace Expr

/-- Multiply by a factor. -/
def scaled (factor : Option Factor) (expr : Expr) : Expr :=
  match factor with
  | some factor => times factor.text expr
  | none => expr

/-- Divide by a factor. -/
def unscaled (factor : Option Factor) (expr : Expr) : Expr :=
  match factor with
  | some factor => times factor.reciprocal expr
  | none => expr

/-- The factor of the bound variable of a derivative. -/
def rateFactor (rule : FactorRule) : Expr → Option Factor
  | apply .diff (apply _ (reference bound) _) (reference _) => rule bound
  | _ => none

/-- Scale all references of an expression. References directly inside a derivative or a bound
variable are `kept`. -/
def rescale (rule : FactorRule) (kept : Bool) : Expr → Expr
  | absent => absent
  | number written => number written
  | reference declaration =>
      if kept then reference declaration else scaled (rule declaration) (reference declaration)
  | apply .assignment (apply .diff left right) other =>
      let rate := apply .diff (left.rescale rule true) (right.rescale rule true)
      apply .assignment rate (scaled (rateFactor rule rate) (other.rescale rule false))
  | apply .diff left right =>
      let rate := apply .diff (left.rescale rule true) (right.rescale rule true)
      unscaled (rateFactor rule rate) rate
  | apply operator left right =>
      let bound := operator == .bvar
      apply operator (left.rescale rule bound) (right.rescale rule bound)

end Expr

end ComponentModel.Equation
