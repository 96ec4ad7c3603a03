import ComponentModel.Analysis.Gathering

/-!
# Derivatives

The derivatives of the equations tell which class is the variable of integration and which classes
are states. All derivatives must be of the first order and by the same variable, which must not
have an initial value.
-/

namespace ComponentModel.Analysis

open Equation.Expr (Finding)

/-- What has been gathered, and the declaration of the variable of integration. -/
structure Differentiated where
  gathered : Gathered
  integration : Option Nat

namespace Differentiated

/-- A declaration is used as variable of integration. The first declaration of its class is
reported for it. -/
def integrateBy (index : Index) (state : Differentiated) (declaration : Nat) : Differentiated :=
  match state.integration with
  | none =>
      let declared := index.declaration declaration
      let gathered :=
        if declared.isInitialised then
          state.gathered.report (.initialisedIntegrationVariable declared.fullName)
        else
          state.gathered
      let first := (index.firstOfModel? declaration).getD declaration
      let registry :=
        match gathered.registry.find? index declaration with
        | some number =>
            gathered.registry.change number fun record =>
              (record.track first false).makeIntegrationVariable
        | none => gathered.registry
      ⟨{ gathered with registry }, some first⟩
  | some first =>
      if index.equivalent first declaration then
        state
      else
        { state with
          gathered := state.gathered.report (.secondIntegrationVariable
            (index.declaration first).fullName (index.declaration declaration).fullName) }

/-- Take in one finding. -/
def note (index : Index) (state : Differentiated) : Finding → Differentiated
  | .integrationVariable declaration => state.integrateBy index declaration
  | .state declaration =>
      match state.gathered.registry.find? index declaration with
      | some number =>
          { state with
            gathered := { state.gathered with
              registry := state.gathered.registry.change number Record.makeState } }
      | none => state
  | .notFirstOrder declaration =>
      { state with
        gathered := state.gathered.report
          (.notFirstOrder (index.declaration declaration).fullName) }

/-- Take in the derivatives of all equations. -/
def ofGathered (index : Index) (gathered : Gathered) : Differentiated :=
  (gathered.equations.flatMap fun equation => equation.expr.findings).foldl (note index)
    ⟨gathered, none⟩

end Differentiated

end ComponentModel.Analysis
