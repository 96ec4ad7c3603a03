import ComponentModel.Analysis.Registry
import ComponentModel.Equation.Expr

/-!
# Ordering of equations

Equations are ordered by elimination. An equation remembers the variables that it refers to and
whose values are still open. As soon as a single one is left, the equation computes it; that may
settle other equations, so all equations are tried again until nothing changes. An equation whose
single open variable is settled already constrains it a second time.
-/

namespace ComponentModel.Analysis

open Equation (Expr)

/-- What an ordered equation computes. -/
inductive EquationKind where
  | unknown
  | trueConstant
  | variableBasedConstant
  | rate
  | algebraic
  deriving Repr, DecidableEq

/-- The next free places. -/
structure Counters where
  state : Nat
  other : Nat
  order : Nat
  deriving Repr, DecidableEq

/-- The counters of a model whose constants take the first places. -/
def Counters.afterConstants (constants : Nat) : Counters :=
  ⟨0, constants, 0⟩

/-- An equation and what has been found out about it. -/
structure OrderedEquation where
  expr : Expr
  /-- The component that the equation belongs to. -/
  component : Nat
  /-- Open plain references. -/
  plain : List Nat
  /-- Open differentiated references. -/
  differentiated : List Nat
  order : Option Nat
  kind : EquationKind
  /-- The equations that compute what this one refers to. -/
  dependencies : List Nat
  /-- No reference has been settled so far. -/
  trueConstant : Bool
  /-- All references settled so far are constants. -/
  variableBased : Bool
  /-- The equation depends on a state or a rate. -/
  rateBased : Bool
  /-- The record that the equation computes. -/
  computes : Option Nat
  deriving Repr

namespace OrderedEquation

/-- An equation with its references, none of them looked at. -/
def new (expr : Expr) (component : Nat) (plain differentiated : List Nat) : OrderedEquation where
  expr
  component
  plain
  differentiated
  order := none
  kind := .unknown
  dependencies := []
  trueConstant := true
  variableBased := true
  rateBased := false
  computes := none

/-- The only open reference. -/
def single? (equation : OrderedEquation) : Option Nat :=
  match equation.plain, equation.differentiated with
  | [only], [] => some only
  | [], [only] => some only
  | _, _ => none

/-- The only open reference, if it is settled already. -/
def constrainedTwice? (equation : OrderedEquation) (registry : Registry) : Option Nat :=
  equation.single?.filter fun number =>
    let record := registry.get number
    record.place.isSome && record.kind != .unknown && record.kind != .shouldBeState

/-- Whether a kind is open or that of a constant. -/
def isConstantKind : Kind → Bool
  | .unknown | .constant | .computedTrueConstant | .computedVariableBasedConstant => true
  | _ => false

/-- Note the kinds of the open references. -/
def noteKinds (equation : OrderedEquation) (registry : Registry) : OrderedEquation :=
  let kinds := (equation.plain ++ equation.differentiated).map fun number =>
    (registry.get number).kind
  { equation with
    trueConstant := equation.trueConstant && kinds.all (· == .unknown)
    variableBased := equation.variableBased && kinds.all isConstantKind
    rateBased := equation.rateBased || !equation.differentiated.isEmpty }

/-- Whether a known variable depends on a state or a rate. -/
def recordRateBased (rateBased : Nat → Bool) (record : Record) : Bool :=
  match record.equation with
  | some equation => rateBased equation
  | none => record.kind == .state

/-- Take known references off, and note what the equation depends on through them. -/
def eliminate (equation : OrderedEquation) (registry : Registry) (rateBased : Nat → Bool) :
    OrderedEquation :=
  let known := (equation.plain.map registry.get).filter Record.isKnown
  { equation with
    rateBased := equation.rateBased || known.any (recordRateBased rateBased)
    dependencies := equation.dependencies ++ known.filterMap Record.equation
    plain := equation.plain.filter fun number => !(registry.get number).isKnown
    differentiated := equation.differentiated.filter fun number =>
      let record := registry.get number
      record.place.isNone && record.kind != .integrationVariable }

/-- Report the declaration of the equation's own component for a class, if there is one, and
settle the kind of the class. -/
def settle (equation : OrderedEquation) (index : Index) (record : Record) : Record :=
  let own := (index.variablesOf equation.component).find? fun declaration =>
    index.equivalent declaration record.declaration
  { record with
    declaration := own.getD record.declaration
    kind := record.kind.resolvedBy equation.trueConstant equation.variableBased }

/-- What an equation computes, by the kind of its variable. -/
def kindFor : Kind → EquationKind
  | .state => .rate
  | .computedTrueConstant => .trueConstant
  | .computedVariableBasedConstant => .variableBasedConstant
  | _ => .algebraic

/-- What a look at an equation leaves behind. -/
structure Checked where
  equation : OrderedEquation
  registry : Registry
  counters : Counters
  /-- The equation has been given an order. -/
  ordered : Bool

/-- Let the equation of a number compute the record of a number, if that is possible. -/
def assign (equation : OrderedEquation) (number : Nat) (registry : Registry) (index : Index)
    (counters : Counters) (last : Nat) : Checked :=
  let record := equation.settle index (registry.get last)
  if record.kind.isComputable then
    let isState := record.kind == .state
    let place := if isState then counters.state else counters.other
    { equation :=
        { equation with
          order := some counters.order
          kind := kindFor record.kind
          computes := some last }
      registry :=
        registry.change last fun _ => { record with place := some place, equation := some number }
      counters :=
        { state := if isState then counters.state + 1 else counters.state
          other := if isState then counters.other else counters.other + 1
          order := counters.order + 1 }
      ordered := true }
  else
    ⟨equation, registry.change last fun _ => record, counters, false⟩

/-- Try to order the equation of a number. `rateBased` tells whether another equation depends on a
state or a rate. -/
def check (equation : OrderedEquation) (number : Nat) (registry : Registry) (index : Index)
    (counters : Counters) (rateBased : Nat → Bool) : Checked :=
  if equation.order.isSome then
    ⟨equation, registry, counters, false⟩
  else
    match equation.constrainedTwice? registry with
    | some last =>
        ⟨equation, registry.change last fun record => { record with kind := .overconstrained },
          counters, false⟩
    | none =>
        let equation := (equation.noteKinds registry).eliminate registry rateBased
        match equation.single? with
        | none => ⟨equation, registry, counters, false⟩
        | some last => equation.assign number registry index counters last

end OrderedEquation

/-- The equations of a model while they are ordered. -/
structure Elimination where
  equations : List OrderedEquation
  registry : Registry
  counters : Counters

namespace Elimination

/-- Whether the equation of a number depends on a state or a rate. -/
def rateBased (state : Elimination) (number : Nat) : Bool :=
  match state.equations[number]? with
  | some equation => equation.rateBased
  | none => false

/-- Look at the equation of a number, and tell whether it has been given an order. -/
def step (index : Index) (state : Elimination) (number : Nat) : Elimination × Bool :=
  match state.equations[number]? with
  | none => (state, false)
  | some equation =>
      let checked := equation.check number state.registry index state.counters
        fun other => other != number && state.rateBased other
      (⟨state.equations.set number checked.equation, checked.registry, checked.counters⟩,
        checked.ordered)

/-- Look at the equations of a list of numbers, one after the other. -/
def pass (index : Index) : Elimination → List Nat → Elimination × Bool
  | state, [] => (state, false)
  | state, number :: rest =>
      let (state, ordered) := state.step index number
      let (state, others) := pass index state rest
      (state, ordered || others)

/-- Look at all equations until a pass orders none of them, `passes` times at most. -/
def runFor (index : Index) : (passes : Nat) → Elimination → Elimination
  | 0, state => state
  | passes + 1, state =>
      match state.pass index (List.range state.equations.length) with
      | (state, true) => runFor index passes state
      | (state, false) => state

/-- Order all equations that can be ordered. Every pass but the last orders an equation. -/
def run (index : Index) (state : Elimination) : Elimination :=
  state.runFor index (state.equations.length + 1)

end Elimination

end ComponentModel.Analysis
