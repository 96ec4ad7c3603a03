import ComponentModel.Analysis.Derivatives
import ComponentModel.Analysis.Result
import ComponentModel.Equation.Arena
import ComponentModel.Units.Registry

/-!
# Analysis of models

A model is analysed by gathering its equations and variables, looking at the derivatives, ordering
the equations and laying out the variables. Problems never stop the analysis with an error; they
are issues, and the type of the model says whether it can be solved.
-/

namespace ComponentModel.Analysis

open Equation (Factor FactorRule)

/-- Whether a record comes before or beside another by the names of its initial declaration. -/
def nameOrder (index : Index) (registry : Registry) (one other : Nat) : Bool :=
  let first := index.declaration (registry.get one).initialDeclaration
  let second := index.declaration (registry.get other).initialDeclaration
  first.component < second.component ||
    (first.component == second.component && !(second.name < first.name))

/-- The records by the names of their initial declarations. -/
def byName (index : Index) (registry : Registry) : List Nat :=
  registry.numbers.mergeSort (nameOrder index registry)

/-- Give the constants among records the first places, counting from `next`. -/
def placeConstants : (next : Nat) → List Nat → Registry → Nat × Registry
  | next, [], registry => (next, registry)
  | next, number :: rest, registry =>
      if (registry.get number).kind == .constant then
        placeConstants (next + 1) rest
          (registry.change number fun record => { record with place := some next })
      else
        placeConstants next rest registry

/-- The equations and records before the first pass, the constants being placed. -/
def startOfElimination (gathered : Gathered) (order : List Nat) : Elimination :=
  let (constants, registry) := placeConstants 0 order gathered.registry
  ⟨gathered.equations, registry, .afterConstants constants⟩

/-- What the kind of a record that is left says about the model. -/
def openIssue? (index : Index) (record : Record) : Option Issue :=
  let name := (index.declaration record.declaration).fullName
  match record.kind with
  | .unknown => some (.notComputed name)
  | .shouldBeState => some (.stateNotInitialised name)
  | .overconstrained => some (.computedTwice name)
  | _ => none

/-- The type of a model by the records that are left. -/
def typeOf (registry : Registry) (integrated : Bool) : ModelType :=
  let tooFew := registry.any fun record => record.kind == .unknown || record.kind == .shouldBeState
  let tooMany := registry.any fun record => record.kind == .overconstrained
  match tooFew, tooMany with
  | true, true => .unsuitablyConstrained
  | true, false => .underconstrained
  | false, true => .overconstrained
  | false, false =>
      if integrated then .ode else if registry.isEmpty then .unknown else .algebraic

/-- The factor from the units of the reported declaration of a class to those of a declaration.
It is one where the factor cannot be told. -/
def unitsFactor (index : Index) (registry : Registry) (units : Option Units.Registry)
    (declaration : Nat) : Float :=
  match registry.find? index declaration, units with
  | some number, some units =>
      let own := (index.declaration declaration).units
      let reference := (index.declaration (registry.get number).declaration).units
      if own == reference then
        1.0
      else
        match units.scalingFactor own reference with
        | .ok factor => factor
        | .error _ => 1.0
  | _, _ => 1.0

/-- A factor as it is written, unless it is one up to rounding. -/
def writtenFactor (factor : Float) : Option Factor :=
  if Decimal.approx factor 1.0 then none
  else some ⟨Decimal.text factor, Decimal.text (1.0 / factor)⟩

/-- The factors of all declarations. -/
def factorRule (index : Index) (registry : Registry) (units : Option Units.Registry) : FactorRule :=
  fun declaration => writtenFactor (unitsFactor index registry units declaration)

/-- Whether a record is laid out before or beside another: by kind, then by place, no place coming
first. -/
def layoutOrder (one other : Record) : Bool :=
  if one.kind == other.kind then
    match one.place, other.place with
    | none, _ => true
    | some _, none => false
    | some first, some second => first ≤ second
  else
    one.kind.rank ≤ other.kind.rank

/-- The variables of an analysed model while they are laid out. -/
structure VariableLayout where
  integration : Option AnalysedVariable
  states : List AnalysedVariable
  otherVariables : List AnalysedVariable
  /-- The variables by the numbers of their records. -/
  byRecord : List (Nat × AnalysedVariable)

namespace VariableLayout

/-- Lay out the record of a number behind the others. -/
def add (index : Index) (registry : Registry) (layout : VariableLayout) (number : Nat) :
    VariableLayout :=
  let record := registry.get number
  match VariableType.ofKind? record.kind with
  | none => layout
  | some type =>
      let entry (place : Nat) : AnalysedVariable :=
        { initial := index.declaration record.initialDeclaration
          declared := index.declaration record.declaration
          type
          place }
      match type with
      | .integrationVariable =>
          let added := entry 0
          { layout with
            integration := some added
            byRecord := (number, added) :: layout.byRecord }
      | .state =>
          let added := entry layout.states.length
          { layout with
            states := layout.states ++ [added]
            byRecord := (number, added) :: layout.byRecord }
      | _ =>
          let added := entry layout.otherVariables.length
          { layout with
            otherVariables := layout.otherVariables ++ [added]
            byRecord := (number, added) :: layout.byRecord }

/-- Lay out all records. -/
def ofRegistry (index : Index) (registry : Registry) : VariableLayout :=
  let order := registry.numbers.mergeSort fun one other =>
    layoutOrder (registry.get one) (registry.get other)
  order.foldl (add index registry) ⟨none, [], [], []⟩

/-- The type and place of the class of a declaration. -/
def binding? (layout : VariableLayout) (index : Index) (registry : Registry)
    (declaration : Nat) : Option (VariableType × Nat) := do
  let number ← registry.find? index declaration
  let found ← layout.byRecord.lookup number
  return (found.type, found.place)

end VariableLayout

/-- The ordered equations by the layout of the variables that they compute. -/
def equationOrder (state : Elimination) : List Nat :=
  let computed (number : Nat) : Record :=
    state.registry.get ((state.equations[number]?.bind OrderedEquation.computes).getD 0)
  let ordered := (List.range state.equations.length).filter fun number =>
    (state.equations[number]?.bind OrderedEquation.order).isSome
  ordered.mergeSort fun one other => layoutOrder (computed one) (computed other)

/-- An equation as it is reported. -/
def reportEquation (rule : FactorRule) (layout : VariableLayout) (order : List Nat)
    (equation : OrderedEquation) : Option AnalysedEquation := do
  let computes ← equation.computes.bind fun number => layout.byRecord.lookup number
  return {
    kind := equation.kind
    expr := equation.expr.scaledInPlace rule
    dependencies := equation.dependencies.filterMap fun number => order.idxOf? number
    rateBased := equation.rateBased
    computes }

/-- The result for a model that can be solved. -/
def solved (type : ModelType) (units : Option Units.Registry) (index : Index)
    (issues : List Issue) (state : Elimination) : AnalysedModel :=
  let rule := factorRule index state.registry units
  let layout := VariableLayout.ofRegistry index state.registry
  let order := equationOrder state
  { type
    issues
    integration := layout.integration
    states := layout.states
    otherVariables := layout.otherVariables
    equations := order.filterMap fun number =>
      state.equations[number]?.bind (reportEquation rule layout order)
    declarations := index.declarations
    classes := index.classes
    bindings := (List.range index.declarations.length).map
      (layout.binding? index state.registry) }

/-- Order the equations of a model without structural issues, and classify its variables. -/
def classify (units : Option Units.Registry) (index : Index) (state : Differentiated) :
    AnalysedModel :=
  let order := byName index state.gathered.registry
  let elimination := (startOfElimination state.gathered order).run index
  let issues := order.filterMap fun number =>
    openIssue? index (elimination.registry.get number)
  let type := typeOf elimination.registry state.integration.isSome
  if type.isValid then
    solved type units index issues elimination
  else
    .unsolved type issues index

/-- Analyse a model without imports. What a validation would refuse is passed over. -/
def analyse (model : Model) : AnalysedModel :=
  let index := Index.ofModel model
  let gathered := Gathered.ofIndex index
  if !gathered.issues.isEmpty then
    .unsolved .invalid gathered.issues index
  else
    let state := Differentiated.ofGathered index gathered
    if !state.gathered.issues.isEmpty then
      .unsolved .invalid state.gathered.issues index
    else
      classify (Units.Registry.ofDefinitions model.units).toOption index state

end ComponentModel.Analysis
