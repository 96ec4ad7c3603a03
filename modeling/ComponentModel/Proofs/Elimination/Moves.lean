import ComponentModel.Proofs.Elimination.Items
import Mathlib.Logic.Relation

/-!
# Moves of an elimination

A look at an equation has five outcomes, each made of at most three elementary moves: a class is
marked as constrained twice, an equation is reduced to its open items, another declaration is
reported for a class, and an equation computes its last open item. Whatever all moves preserve
holds throughout an elimination, so invariants are proved of moves and nothing else.
-/

namespace ComponentModel.Analysis

namespace OrderedEquation

/-- An equation after the kinds of its references have been noted and the settled ones taken
off. -/
def reduce (equation : OrderedEquation) (registry : Registry) (rateBased : Nat → Bool) :
    OrderedEquation :=
  (equation.noteKinds registry).eliminate registry rateBased

/-- The kind of a class that an equation computes. -/
def resolved (equation : OrderedEquation) (kind : Kind) : Kind :=
  kind.resolvedBy equation.trueConstant equation.variableBased

/-- An equation that has been given an order. -/
def ordered (equation : OrderedEquation) (order : Nat) (kind : Kind) (number : Nat) :
    OrderedEquation :=
  { equation with order := some order, kind := kindFor kind, computes := some number }

variable (equation : OrderedEquation) (registry : Registry) (rateBased : Nat → Bool)

@[simp] theorem order_reduce : (equation.reduce registry rateBased).order = equation.order := rfl

@[simp] theorem items_reduce :
    (equation.reduce registry rateBased).items =
      equation.items.filter fun item => !item.isSettled registry :=
  items_eliminate rateBased

@[simp] theorem items_ordered (order : Nat) (kind : Kind) (number : Nat) :
    (equation.ordered order kind number).items = equation.items := rfl

/-- What a reduction leaves is open. -/
theorem isSettled_of_mem_reduce {item : Item}
    (membership : item ∈ (equation.reduce registry rateBased).items) :
    item.isSettled registry = false := by
  rw [items_reduce, List.mem_filter, Bool.not_eq_true'] at membership
  exact membership.2

end OrderedEquation

namespace Elimination

/-- The equation of a number, reduced to its open items. -/
def reduced (state : Elimination) (number : Nat) (equation : OrderedEquation) : OrderedEquation :=
  equation.reduce state.registry fun other => other != number && state.rateBased other

/-- Put an equation in the place of a number. -/
def setEquation (state : Elimination) (number : Nat) (equation : OrderedEquation) : Elimination :=
  { state with equations := state.equations.set number equation }

/-- Mark a class as constrained twice. -/
def mark (state : Elimination) (number : Nat) : Elimination :=
  { state with
    registry := state.registry.change number fun record =>
      { record with kind := .overconstrained } }

/-- Report a declaration for a class. -/
def report (state : Elimination) (number declaration : Nat) : Elimination :=
  { state with
    registry := state.registry.change number fun record => { record with declaration } }

/-- The place that a class of a kind gets next. -/
def nextPlace (counters : Counters) (kind : Kind) : Nat :=
  if kind == .state then counters.state else counters.other

/-- The counters after a class of a kind has got a place. -/
def advance (counters : Counters) (kind : Kind) : Counters where
  state := if kind == .state then counters.state + 1 else counters.state
  other := if kind == .state then counters.other else counters.other + 1
  order := counters.order + 1

/-- Let the equation of a number compute the class of a record. -/
def compute (state : Elimination) (number : Nat) (equation : OrderedEquation) (last : Nat) :
    Elimination :=
  let kind := equation.resolved (state.registry.get last).kind
  { equations :=
      state.equations.set number (equation.ordered state.counters.order kind last)
    registry := state.registry.change last fun record =>
      { record with
        kind
        place := some (nextPlace state.counters kind)
        equation := some number }
    counters := advance state.counters kind }

section

variable (state : Elimination) (number declaration other : Nat)

@[simp] theorem place_mark :
    ((state.mark number).registry.get other).place = (state.registry.get other).place :=
  Registry.project_change Record.place fun _ => rfl

@[simp] theorem equation_mark :
    ((state.mark number).registry.get other).equation = (state.registry.get other).equation :=
  Registry.project_change Record.equation fun _ => rfl

@[simp] theorem kind_report :
    ((state.report number declaration).registry.get other).kind =
      (state.registry.get other).kind :=
  Registry.project_change Record.kind fun _ => rfl

@[simp] theorem place_report :
    ((state.report number declaration).registry.get other).place =
      (state.registry.get other).place :=
  Registry.project_change Record.place fun _ => rfl

@[simp] theorem equation_report :
    ((state.report number declaration).registry.get other).equation =
      (state.registry.get other).equation :=
  Registry.project_change Record.equation fun _ => rfl

end

/-- An elementary change of an elimination. -/
inductive Move (index : Index) (state : Elimination) : Elimination → Prop
  | mark (number : Nat) (placed : (state.registry.get number).place.isSome)
      (met : (state.registry.get number).kind ≠ .unknown)
      (initialised : (state.registry.get number).kind ≠ .shouldBeState) :
      Move index state (state.mark number)
  | reduce (number : Nat) (equation : OrderedEquation)
      (found : state.equations[number]? = some equation) (waiting : equation.order = none) :
      Move index state (state.setEquation number (state.reduced number equation))
  | report (number declaration : Nat)
      (same : index.equivalent declaration (state.registry.get number).declaration) :
      Move index state (state.report number declaration)
  | compute (number : Nat) (equation : OrderedEquation) (item : Item)
      (found : state.equations[number]? = some equation) (waiting : equation.order = none)
      (single : equation.items = [item]) (unsettled : item.isSettled state.registry = false)
      (computable : (equation.resolved (state.registry.get item.number).kind).isComputable) :
      Move index state (state.compute number equation item.number)

/-- What a look at the equation of a number comes to. -/
inductive Look (index : Index) (state : Elimination) (number : Nat) : Elimination × Bool → Prop
  /-- There is no equation, or it has an order already. -/
  | idle (done : ∀ equation, state.equations[number]? = some equation → equation.order.isSome) :
      Look index state number (state, false)
  /-- The only open item is settled already. -/
  | twice (equation : OrderedEquation) (item : Item)
      (found : state.equations[number]? = some equation) (waiting : equation.order = none)
      (single : equation.items = [item])
      (placed : (state.registry.get item.number).place.isSome)
      (met : (state.registry.get item.number).kind ≠ .unknown)
      (initialised : (state.registry.get item.number).kind ≠ .shouldBeState) :
      Look index state number (state.mark item.number, false)
  /-- No single item stays open. -/
  | several (equation : OrderedEquation)
      (found : state.equations[number]? = some equation) (waiting : equation.order = none)
      (several : ∀ item, (state.reduced number equation).items ≠ [item]) :
      Look index state number (state.setEquation number (state.reduced number equation), false)
  /-- The item that stays open is not for an equation to settle. -/
  | refused (equation : OrderedEquation) (item : Item) (declaration : Nat)
      (found : state.equations[number]? = some equation) (waiting : equation.order = none)
      (single : (state.reduced number equation).items = [item])
      (same : index.equivalent declaration (state.registry.get item.number).declaration)
      (refused : ((state.reduced number equation).resolved
        (state.registry.get item.number).kind).isComputable = false) :
      Look index state number
        ((state.setEquation number (state.reduced number equation)).report item.number declaration,
          false)
  /-- The equation computes the item that stays open. -/
  | computed (equation : OrderedEquation) (item : Item) (declaration : Nat)
      (found : state.equations[number]? = some equation) (waiting : equation.order = none)
      (single : (state.reduced number equation).items = [item])
      (same : index.equivalent declaration (state.registry.get item.number).declaration)
      (computable : ((state.reduced number equation).resolved
        (state.registry.get item.number).kind).isComputable) :
      Look index state number
        (((state.setEquation number (state.reduced number equation)).report
          item.number declaration).compute number (state.reduced number equation) item.number,
          true)

/-! ## A look is one of the five -/

end Elimination

namespace OrderedEquation

/-- A kind that no equation settles stays as it is. -/
theorem resolved_eq_self {equation : OrderedEquation} {kind : Kind}
    (refused : (equation.resolved kind).isComputable = false) : equation.resolved kind = kind := by
  cases kind <;> simp_all [resolved, Kind.resolvedBy]
  split at refused <;> [cases refused; split at refused <;> cases refused]

/-- The declaration that is reported for the class of a record when an equation settles it. -/
def reportedFor (equation : OrderedEquation) (index : Index) (record : Record) : Nat :=
  ((index.variablesOf equation.component).find? fun declaration =>
    index.equivalent declaration record.declaration).getD record.declaration

theorem settle_eq (equation : OrderedEquation) (index : Index) (record : Record) :
    equation.settle index record =
      { record with
        declaration := equation.reportedFor index record
        kind := equation.resolved record.kind } := rfl

theorem equivalent_reportedFor (equation : OrderedEquation) (index : Index) (record : Record) :
    index.equivalent (equation.reportedFor index record) record.declaration := by
  unfold reportedFor
  cases own : (index.variablesOf equation.component).find? fun declaration =>
      index.equivalent declaration record.declaration with
  | none => simp [Index.equivalent]
  | some declaration => simpa using List.find?_some own

/-- The only open item of an equation that is looked at in vain has a place and a settled kind. -/
theorem constrainedTwice?_eq_some {equation : OrderedEquation} {registry : Registry}
    {number : Nat} (twice : equation.constrainedTwice? registry = some number) :
    equation.single? = some number ∧ (registry.get number).place.isSome ∧
      (registry.get number).kind ≠ .unknown ∧ (registry.get number).kind ≠ .shouldBeState := by
  simpa [constrainedTwice?, Option.filter_eq_some_iff, and_assoc] using twice

end OrderedEquation

namespace Elimination

variable {index : Index} {state : Elimination} {number : Nat}

theorem set_getElem? {equation : OrderedEquation}
    (found : state.equations[number]? = some equation) :
    state.equations.set number equation = state.equations := by
  obtain ⟨inside, rfl⟩ := List.getElem?_eq_some_iff.mp found
  exact List.set_getElem_self inside

/-- Looking at an equation that has an order changes nothing. -/
theorem step_of_ordered {equation : OrderedEquation}
    (found : state.equations[number]? = some equation) (done : equation.order.isSome) :
    state.step index number = (state, false) := by
  simp [step, found, OrderedEquation.check, done, set_getElem? found]

/-- Looking at an equation without an order marks the class of its only item as constrained
twice, or reduces the equation and settles the class of the item that is left. -/
theorem step_of_waiting {equation : OrderedEquation}
    (found : state.equations[number]? = some equation) (waiting : equation.order = none) :
    state.step index number =
      match equation.constrainedTwice? state.registry with
      | some last => (state.mark last, false)
      | none =>
          match (state.reduced number equation).single? with
          | none => (state.setEquation number (state.reduced number equation), false)
          | some last =>
              let checked := (state.reduced number equation).assign number state.registry index
                state.counters last
              (⟨state.equations.set number checked.equation, checked.registry, checked.counters⟩,
                checked.ordered) := by
  simp only [step, found, OrderedEquation.check, waiting, Option.isSome_none]
  cases equation.constrainedTwice? state.registry with
  | some last => simp [mark, set_getElem? found]
  | none =>
      cases single : (state.reduced number equation).single? with
      | none =>
          simp only [reduced, OrderedEquation.reduce] at single
          simp [single, setEquation, reduced, OrderedEquation.reduce]
      | some last =>
          simp only [reduced, OrderedEquation.reduce] at single
          simp [single, reduced, OrderedEquation.reduce]

/-- The outcome of an assignment that is refused. -/
theorem assign_of_refused {equation : OrderedEquation} {last : Nat}
    (refused : (equation.resolved (state.registry.get last).kind).isComputable = false) :
    equation.assign number state.registry index state.counters last =
      ⟨equation, (state.report last
        (equation.reportedFor index (state.registry.get last))).registry, state.counters,
        false⟩ := by
  simp only [OrderedEquation.assign, OrderedEquation.settle_eq, refused]
  simp only [Bool.false_eq_true, if_false, report]
  congr 1
  apply Registry.change_congr
  rw [OrderedEquation.resolved_eq_self refused]

/-- The outcome of an assignment that succeeds. -/
theorem assign_of_computable (index : Index) (number : Nat) {equation : OrderedEquation}
    {last : Nat} (computable : (equation.resolved (state.registry.get last).kind).isComputable) :
    let checked := equation.assign number state.registry index state.counters last
    (⟨state.equations.set number checked.equation, checked.registry, checked.counters⟩,
        checked.ordered) =
      ((state.report last (equation.reportedFor index (state.registry.get last))).compute number
        equation last, true) := by
  simp only [OrderedEquation.assign, OrderedEquation.settle_eq, computable, if_true, compute,
    kind_report]
  simp only [report, Registry.change_change]
  congr 2
  apply Registry.change_congr
  simp [nextPlace]

/-- Computing an item overwrites a reduction of the same equation. -/
theorem compute_setEquation {reduced equation : OrderedEquation} {last declaration : Nat} :
    ((state.setEquation number reduced).report last declaration).compute number equation last =
      (state.report last declaration).compute number equation last := by
  simp [compute, report, setEquation]

theorem look_step : Look index state number (state.step index number) := by
  cases found : state.equations[number]? with
  | none =>
      have same : state.step index number = (state, false) := by simp [step, found]
      rw [same]
      exact .idle (by simp [found])
  | some equation =>
      cases waiting : equation.order with
      | some order =>
          rw [step_of_ordered found (by simp [waiting])]
          exact .idle (by simp [found, waiting])
      | none =>
          rw [step_of_waiting found waiting]
          cases twice : equation.constrainedTwice? state.registry with
          | some last =>
              obtain ⟨single, placed, met, initialised⟩ :=
                OrderedEquation.constrainedTwice?_eq_some twice
              obtain ⟨item, items, rfl⟩ := OrderedEquation.single?_eq_some.mp single
              exact .twice equation item found waiting items placed met initialised
          | none =>
              cases single : (state.reduced number equation).single? with
              | none =>
                  refine .several equation found waiting fun item items => ?_
                  have same := OrderedEquation.single?_eq_some.mpr ⟨item, items, rfl⟩
                  simp [single] at same
              | some last =>
                  obtain ⟨item, items, rfl⟩ := OrderedEquation.single?_eq_some.mp single
                  have same := OrderedEquation.equivalent_reportedFor
                    (state.reduced number equation) index (state.registry.get item.number)
                  cases computable : ((state.reduced number equation).resolved
                      (state.registry.get item.number).kind).isComputable with
                  | false =>
                      simp only [assign_of_refused computable]
                      exact .refused equation item _ found waiting items same computable
                  | true =>
                      have assigned := assign_of_computable index number computable
                      simp only at assigned ⊢
                      rw [assigned, ← compute_setEquation]
                      exact .computed equation item _ found waiting items same computable

/-- Every look is made of moves. -/
theorem moves_step (index : Index) (state : Elimination) (number : Nat) :
    Relation.ReflTransGen (Move index) state (state.step index number).1 := by
  have look : Look index state number (state.step index number) := look_step
  generalize state.step index number = outcome at look
  cases look with
  | idle => exact .refl
  | twice equation item found waiting single placed met initialised =>
      exact .single (.mark item.number placed met initialised)
  | several equation found waiting several =>
      exact .single (.reduce number equation found waiting)
  | refused equation item declaration found waiting single same refused =>
      have reduction : Move index state _ := .reduce number equation found waiting
      exact .tail (.single reduction) (.report item.number declaration same)
  | computed equation item declaration found waiting single same computable =>
      have reduction : Move index state _ := .reduce number equation found waiting
      have inside : number < state.equations.length :=
        (List.getElem?_eq_some_iff.mp found).1
      have open_ : item ∈ (state.reduced number equation).items := by simp [single]
      have unsettled := OrderedEquation.isSettled_of_mem_reduce _ _ _ open_
      refine .tail (.tail (.single reduction) (.report item.number declaration same)) ?_
      refine .compute number (state.reduced number equation) item ?_ waiting single ?_ ?_
      · simp [report, setEquation, inside]
      · rw [← unsettled]
        exact Item.isSettled_congr (kind_report ..) (place_report ..)
      · rw [kind_report]
        exact computable

end Elimination

end ComponentModel.Analysis
