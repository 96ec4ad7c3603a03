import ComponentModel.Analysis.Issue
import ComponentModel.Analysis.Ordering

/-!
# Analysed models

The result of an analysis: the type of the model with all issues, and for a model that can be
solved its variable of integration, states, other variables and ordered equations.
-/

namespace ComponentModel.Analysis

open Equation (Expr MathFunction)

/-- Overall type of a model. -/
inductive ModelType where
  | unknown
  | invalid
  | ode
  | algebraic
  | underconstrained
  | overconstrained
  | unsuitablyConstrained
  deriving Repr, DecidableEq

namespace ModelType

/-- Whether code can be generated. -/
def isValid : ModelType → Bool
  | ode | algebraic => true
  | _ => false

/-- The words for a type. -/
def text : ModelType → String
  | unknown => "unknown"
  | invalid => "invalid"
  | ode => "ode"
  | algebraic => "algebraic"
  | underconstrained => "underconstrained"
  | overconstrained => "overconstrained"
  | unsuitablyConstrained => "unsuitably constrained"

end ModelType

/-- Role of a variable in an analysed model. -/
inductive VariableType where
  | integrationVariable
  | state
  | constant
  | computedConstant
  | algebraic
  deriving Repr, DecidableEq

/-- The role of a record by its kind. A kind without a role does not occur in a model that can be
solved. -/
def VariableType.ofKind? : Kind → Option VariableType
  | .integrationVariable => some .integrationVariable
  | .state => some .state
  | .constant => some .constant
  | .computedTrueConstant | .computedVariableBasedConstant => some .computedConstant
  | .algebraic => some .algebraic
  | .unknown | .shouldBeState | .overconstrained => none

/-- A class of variables in an analysed model. -/
structure AnalysedVariable where
  /-- The declaration with the initial value. -/
  initial : Declared
  /-- The declaration that is reported for the class. -/
  declared : Declared
  type : VariableType
  /-- The place among the states, or among all other variables. -/
  place : Nat
  deriving Repr

/-- An ordered equation. -/
structure AnalysedEquation where
  kind : EquationKind
  /-- The equation with all references scaled. -/
  expr : Expr
  /-- The places of the equations that compute what this one refers to. -/
  dependencies : List Nat
  /-- Whether the equation depends on a state or a rate. -/
  rateBased : Bool
  /-- The variable that the equation computes. -/
  computes : AnalysedVariable
  deriving Repr

/-- The result of an analysis. -/
structure AnalysedModel where
  type : ModelType
  issues : List Issue
  integration : Option AnalysedVariable
  states : List AnalysedVariable
  /-- Constants, computed constants and algebraic variables, in this order. -/
  otherVariables : List AnalysedVariable
  /-- Equations in the order of the variables that they compute. -/
  equations : List AnalysedEquation
  declarations : List Declared
  /-- The representative of the class of each declaration. -/
  classes : List Nat
  /-- The type and the place of the class of each declaration. -/
  bindings : List (Option (VariableType × Nat))
  deriving Repr

namespace AnalysedModel

/-- The result for a model that cannot be solved. -/
def unsolved (type : ModelType) (issues : List Issue) (index : Index) : AnalysedModel where
  type
  issues
  integration := none
  states := []
  otherVariables := []
  equations := []
  declarations := index.declarations
  classes := index.classes
  bindings := []

/-- The first declaration of the given names. -/
def declarationOf? (model : AnalysedModel) (component name : String) : Option Nat :=
  model.declarations.findIdx? fun declared =>
    declared.component == component && declared.name == name

/-- Whether two variables, given by their names, are the same. -/
def equivalent (model : AnalysedModel) (one other : VariableName) : Bool :=
  match model.declarationOf? one.component one.name,
      model.declarationOf? other.component other.name with
  | some one, some other => model.classes.getD one one == model.classes.getD other other
  | _, _ => false

/-- The type and place of the class of a declaration. -/
def binding? (model : AnalysedModel) (declaration : Nat) : Option (VariableType × Nat) :=
  (model.bindings[declaration]?).join

/-- The type and place of the class of the variable of the given names. -/
def bindingOf? (model : AnalysedModel) (component name : String) : Option (VariableType × Nat) :=
  (model.declarationOf? component name).bind model.binding?

/-- Whether an equation uses a function. -/
def needs (model : AnalysedModel) (function : MathFunction) : Bool :=
  model.equations.any fun equation => equation.expr.uses function.operator

/-- The functions that the equations use, in order. -/
def functions (model : AnalysedModel) : List MathFunction :=
  MathFunction.all.filter model.needs

end AnalysedModel

end ComponentModel.Analysis
