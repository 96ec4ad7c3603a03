import ComponentModel.Analysis.Result

/-!
# Schedules

The generated procedures evaluate the equations of a model. A schedule says which equations each
procedure evaluates, and in which order: an equation comes after the equations that it depends on.
-/

namespace ComponentModel.Code

open Analysis (AnalysedEquation AnalysedModel EquationKind)

/-- The places of equations, in the order of their evaluation. -/
abbrev Places := List Nat

/-- Whether an equation has to be evaluated again whenever states change. -/
def isFresh (equation : AnalysedEquation) : Bool :=
  equation.kind == .algebraic && equation.rateBased

/-- Whether the equation of a place is followed and not evaluated yet. -/
def isAwaited (equations : List AnalysedEquation) (followed : AnalysedEquation → Bool)
    (evaluated : Places) (place : Nat) : Bool :=
  (equations[place]?.map followed).getD false && !evaluated.contains place

/-- Evaluate the equation of a place after those it depends on, unless it is evaluated already.
Dependencies that are not `followed` are left out. A chain of dependencies is no longer than the
list of equations, which bounds `depth`. -/
def evaluate (equations : List AnalysedEquation) (followed : AnalysedEquation → Bool) :
    (depth : Nat) → (place : Nat) → (evaluated : Places) → Places
  | 0, _, evaluated => evaluated
  | depth + 1, place, evaluated =>
      match equations[place]? with
      | none => evaluated
      | some equation =>
          let evaluated := equation.dependencies.foldl
            (fun evaluated dependency =>
              if isAwaited equations followed evaluated dependency then
                evaluate equations followed depth dependency evaluated
              else
                evaluated)
            evaluated
          if evaluated.contains place then evaluated else evaluated ++ [place]

/-- The equations of each procedure. -/
structure Schedule where
  /-- Equations without references. -/
  initialise : Places
  /-- Equations that refer to constants only. -/
  computedConstants : Places
  /-- Equations of rates, and all that they need. -/
  rates : Places
  /-- Equations not evaluated by the others, and those that depend on states or rates. -/
  otherVariables : Places
  deriving Repr, DecidableEq

namespace Schedule

/-- Evaluate the accepted equations in order, after those they depend on. -/
def evaluateWhere (equations : List AnalysedEquation) (followed : AnalysedEquation → Bool)
    (accept : Nat → AnalysedEquation → Bool) (evaluated : Places) : Places :=
  equations.zipIdx.foldl
    (fun evaluated entry =>
      if accept entry.2 entry.1 then
        evaluate equations followed (equations.length + 1) entry.2 evaluated
      else
        evaluated)
    evaluated

/-- Evaluate the equations of a kind and all that they need. -/
def evaluateKind (equations : List AnalysedEquation) (kind : EquationKind) (evaluated : Places) :
    Places :=
  evaluateWhere equations (fun _ => true) (fun _ equation => equation.kind == kind) evaluated

/-- The schedule of a model. Only a model with an integration variable computes rates. -/
def ofModel (model : AnalysedModel) : Schedule :=
  let equations := model.equations
  let first := evaluateKind equations .trueConstant []
  let second := evaluateKind equations .variableBasedConstant first
  let third :=
    if model.type == .ode then evaluateKind equations .rate second else second
  { initialise := first
    computedConstants := second.drop first.length
    rates := third.drop second.length
    otherVariables := evaluateWhere equations isFresh
      (fun place equation => !third.contains place || isFresh equation) [] }

end Schedule

end ComponentModel.Code
