import ComponentModel.Analysis.Index

/-!
# Issues

What an analysis finds wrong with a model. Structural issues are found while the equations are
read and end the analysis; the others say which variables the equations leave open or compute
twice.
-/

namespace ComponentModel.Analysis

/-- A variable by the names of its component and its own. -/
structure VariableName where
  component : String
  name : String
  deriving Repr, DecidableEq

/-- The names of a declaration. -/
def Declared.fullName (declared : Declared) : VariableName :=
  ⟨declared.component, declared.name⟩

/-- A variable inside a sentence. -/
def VariableName.phrase (variableName : VariableName) : String :=
  "variable '" ++ variableName.name ++ "' in component '" ++ variableName.component ++ "'"

/-- A variable at the start of a sentence. -/
def VariableName.text (variableName : VariableName) : String :=
  "Variable '" ++ variableName.name ++ "' in component '" ++ variableName.component ++ "'"

/-- A problem of a model. -/
inductive Issue where
  | undefinedVariable (place : VariableName)
  | notFirstOrder (place : VariableName)
  | secondIntegrationVariable (first place : VariableName)
  | initialisedIntegrationVariable (place : VariableName)
  | initialisedTwice (place other : VariableName)
  | notComputed (place : VariableName)
  | stateNotInitialised (place : VariableName)
  | computedTwice (place : VariableName)
  deriving Repr, DecidableEq

namespace Issue

/-- The variable that an issue is about. -/
def subject : Issue → VariableName
  | undefinedVariable place => place
  | notFirstOrder place => place
  | secondIntegrationVariable _ place => place
  | initialisedIntegrationVariable place => place
  | initialisedTwice place _ => place
  | notComputed place => place
  | stateNotInitialised place => place
  | computedTwice place => place

/-- Whether an issue ends the analysis before variables are classified. -/
def isStructural : Issue → Bool
  | notComputed _ | stateNotInitialised _ | computedTwice _ => false
  | _ => true

/-- The description of an issue. -/
def message : Issue → String
  | undefinedVariable place =>
      place.text ++ " is referenced in an equation, but it is not defined anywhere."
  | notFirstOrder place =>
      "The differential equation for " ++ place.phrase ++ " must be of the first order."
  | secondIntegrationVariable first place =>
      first.text ++ " and " ++ place.phrase ++ " cannot both be a variable of integration."
  | initialisedIntegrationVariable place =>
      place.text ++ " cannot be both a variable of integration and initialised."
  | initialisedTwice place other =>
      place.text ++ " and " ++ other.phrase ++
        " are equivalent and cannot therefore both be initialised."
  | notComputed place => place.text ++ " is not computed."
  | stateNotInitialised place => place.text ++ " is used in an ODE, but it is not initialised."
  | computedTwice place => place.text ++ " is computed more than once."

end Issue

end ComponentModel.Analysis
