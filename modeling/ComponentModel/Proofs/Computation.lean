import ComponentModel.Proofs.Cells
import ComponentModel.Proofs.Dataflow

/-!
# What equations compute

The equations of a model that can be solved compute different variables, each of a type that the
kind of the equation tells. All computed constants and algebraic variables are computed. States
are not: the rate of a state is computed exactly if the equations settle it one after the other,
and a model whose equations only relate the rates of its states to each other passes as solvable.
-/

namespace ComponentModel.Analysis

/-- The type of the variables that equations of a kind compute. -/
def EquationKind.computedType? : EquationKind → Option VariableType
  | .unknown => none
  | .trueConstant | .variableBasedConstant => some .computedConstant
  | .rate => some .state
  | .algebraic => some .algebraic

namespace AnalysedModel

/-- The equation of a place computes a variable. -/
def ComputesAt (analysed : AnalysedModel) (place : Nat) (found : AnalysedVariable) : Prop :=
  ∃ result, analysed.equations[place]? = some result ∧ result.computes = found

end AnalysedModel

namespace Stage

variable {model : Model} {place record : Nat} {found : AnalysedVariable}
  {result : AnalysedEquation}

/-- The kind of a reported equation tells the type of what it computes. -/
theorem computedType?_eq (valid : (analyse model).type.isValid)
    (reported : (analyse model).equations[place]? = some result) :
    result.kind.computedType? = some result.computes.type := by
  obtain ⟨_, _, _, equation, item, reportedAt⟩ := exists_reportedAt valid reported
  have type := (isEntry reportedAt.entry).type
  rcases reportedAt.kind_cases valid with ⟨record, rfl, computes⟩ | ⟨record, rfl, isRate, left⟩
  · rw [reportedAt.kind]
    cases computes with
    | trueConstant kind _ left | variableBased kind _ left | algebraic kind left =>
        rw [Item.number_value, left] at type
        rw [kind, ← type]
        rfl
  · rw [Item.number_rate, left] at type
    rw [isRate, ← type]
    rfl

/-- What an equation computes stands in the cell that it names. -/
theorem occupant?_computes (valid : (analyse model).type.isValid)
    (reported : (analyse model).equations[place]? = some result) :
    (analyse model).occupant? result.computes.cell = some result.computes := by
  obtain ⟨_, _, _, _, _, reportedAt⟩ := exists_reportedAt valid reported
  exact occupant?_of_entry valid reportedAt.entry

/-- Equations that compute what stands in the same cell are the same. -/
theorem place_eq_of_cell (valid : (analyse model).type.isValid) {one other : Nat}
    {resultOne resultOther : AnalysedEquation}
    (reported : (analyse model).equations[one]? = some resultOne)
    (reportedOther : (analyse model).equations[other]? = some resultOther)
    (same : resultOne.computes.cell = resultOther.computes.cell) : one = other := by
  obtain ⟨number, _, _, _, item, reportedAt⟩ := exists_reportedAt valid reported
  obtain ⟨number', _, _, _, item', reportedAt'⟩ := exists_reportedAt valid reportedOther
  have sameRecord := (cell_eq_iff reportedAt.entry reportedAt'.entry).mp same
  have named := reportedAt.ordered.named
  rw [sameRecord] at named
  obtain rfl := Option.some.inj (named.symm.trans reportedAt'.ordered.named)
  have inside := (List.getElem?_eq_some_iff.mp reportedAt.listed).1
  exact (List.getElem?_inj inside nodup_equationOrder).mp
    (reportedAt.listed.trans reportedAt'.listed.symm)

/-- A variable is computed at one place at most. -/
theorem place_eq_of_computesAt (valid : (analyse model).type.isValid) {one other : Nat}
    (computed : (analyse model).ComputesAt one found)
    (computedOther : (analyse model).ComputesAt other found) : one = other := by
  obtain ⟨resultOne, reported, rfl⟩ := computed
  obtain ⟨resultOther, reportedOther, same⟩ := computedOther
  exact place_eq_of_cell valid reported reportedOther (congrArg AnalysedVariable.cell same.symm)

/-- A variable is computed exactly if its record names an equation. -/
theorem computesAt_iff (valid : (analyse model).type.isValid)
    (entry : (layout model).byRecord.lookup record = some found) :
    (∃ place, (analyse model).ComputesAt place found) ↔
      ((final model).registry.get record).equation.isSome := by
  constructor
  · rintro ⟨place, result, reported, rfl⟩
    obtain ⟨number, _, _, _, item, reportedAt⟩ := exists_reportedAt valid reported
    have same := (cell_eq_iff reportedAt.entry entry).mp rfl
    exact Option.isSome_of_eq_some (same ▸ reportedAt.ordered.named)
  · intro isSome
    obtain ⟨number, named⟩ := Option.isSome_iff_exists.mp isSome
    obtain ⟨equation, item, order, foundEquation, ordered, -⟩ :=
      Elimination.exists_computing (ready model) (moves model) named
    obtain ⟨place, listed⟩ :=
      exists_place (Elimination.orderOf_eq_some.mpr ⟨equation, foundEquation, ordered⟩)
    obtain ⟨_, _, _, _, result, reportedAt, -, computes⟩ :=
      exists_reportedAt_of_named valid named entry listed
    exact ⟨place, result, reportedAt.found, computes⟩

/-- The records of computed constants and algebraic variables name an equation. -/
theorem isSome_equation_of_type
    (entry : (layout model).byRecord.lookup record = some found)
    (computed : found.type = .computedConstant ∨ found.type = .algebraic) :
    ((final model).registry.get record).equation.isSome := by
  have type := (isEntry entry).type
  cases Elimination.standing_of_moves (ready model) (moves model) record with
  | untouched same =>
      have initial := (ready model).initial record
      rw [same] at type
      rcases computed with isType | isType
      all_goals
        rw [isType] at type
        cases kind : ((start model).registry.get record).kind <;>
          simp_all [Kind.isInitial, VariableType.ofKind?]
  | twice _ kind => simp [kind, VariableType.ofKind?] at type
  | value _ _ _ named => exact named
  | rate _ _ _ named => exact named

/-- The equations of a model that can be solved compute different variables. The kind of an equation
tells the type of its variable, which is never a constant or the variable of integration. Every
computed constant and every algebraic variable is computed by exactly one equation. -/
theorem computes_each_once (model : Model) (valid : (analyse model).type.isValid) :
    (∀ (place : Nat) (result : AnalysedEquation),
      (analyse model).equations[place]? = some result →
      result.kind.computedType? = some result.computes.type ∧
      result.computes.type ≠ .constant ∧ result.computes.type ≠ .integrationVariable ∧
      (analyse model).occupant? result.computes.cell = some result.computes) ∧
    (∀ (one other : Nat) (resultOne resultOther : AnalysedEquation),
      (analyse model).equations[one]? = some resultOne →
      (analyse model).equations[other]? = some resultOther →
      resultOne.computes.cell = resultOther.computes.cell → one = other) ∧
    ∀ found ∈ (analyse model).otherVariables,
      found.type = .computedConstant ∨ found.type = .algebraic →
      ∃! place, (analyse model).ComputesAt place found := by
  refine ⟨fun place result reported => ?_, fun one other resultOne resultOther =>
    place_eq_of_cell valid, fun found membership computed => ?_⟩
  · have type := computedType?_eq valid reported
    refine ⟨type, fun isConstant => ?_, fun isIntegration => ?_, occupant?_computes valid reported⟩
    · rw [isConstant] at type
      cases kind : result.kind <;> rw [kind] at type <;> cases type
    · rw [isIntegration] at type
      cases kind : result.kind <;> rw [kind] at type <;> cases type
  · obtain ⟨place, kept⟩ := List.mem_iff_getElem?.mp membership
    change (analyse model).occupant? (.other place) = some found at kept
    obtain ⟨-, record, -, entry⟩ := exists_entry_of_occupant valid kept
    obtain ⟨place, computes⟩ :=
      (computesAt_iff valid entry).mpr (isSome_equation_of_type entry computed)
    exact ⟨place, computes, fun other computesOther =>
      place_eq_of_computesAt valid computesOther computes⟩

/-- The displayed rate is computed by exactly one equation. -/
theorem weighed_computes :
    (analyse weighed).type.isValid ∧ ∃ found ∈ (analyse weighed).otherVariables,
      found.declared.name = "y" ∧ found.type = .algebraic ∧
        ∃! place, (analyse weighed).ComputesAt place found := by
  obtain ⟨-, -, each⟩ := computes_each_once weighed valid_weighed
  have listed : (analyse weighed).otherVariables =
      [⟨⟨"display", "y", "gram", none⟩, ⟨"display", "y", "gram", none⟩, .algebraic, 0⟩] := by
    rw [otherVariables_analyse valid_weighed, layout, registry_weighed]
    cbv
  have membership : _ ∈ (analyse weighed).otherVariables := listed ▸ List.mem_singleton_self _
  exact ⟨valid_weighed, _, membership, rfl, rfl, each _ membership (Or.inr rfl)⟩

/-! ## States -/

/-- The states are the variables of the differentiated classes, other than that of the variable of
integration. -/
theorem mem_states_iff (valid : (analyse model).type.isValid) :
    found ∈ (analyse model).states ↔
      ∃ record, (layout model).byRecord.lookup record = some found ∧
        IsMentioned model .differentiated record ∧ ¬IsMentioned model .bound record := by
  constructor
  · intro membership
    obtain ⟨place, kept⟩ := List.mem_iff_getElem?.mp membership
    change (analyse model).occupant? (.state place) = some found at kept
    obtain ⟨same, record, -, entry⟩ := exists_entry_of_occupant valid kept
    refine ⟨record, entry, (type_eq_state_iff valid entry).mp ?_⟩
    rw [AnalysedVariable.cell] at same
    cases type : found.type <;> simp_all [Cell.of]
  · rintro ⟨record, entry, mentioned⟩
    have isState := (type_eq_state_iff valid entry).mpr mentioned
    have kept := occupant?_of_entry valid entry
    rw [AnalysedVariable.cell, isState] at kept
    exact List.mem_of_getElem? kept

/-- The rate of a state is computed exactly if the equations settle it. -/
theorem computesAt_iff_settled (valid : (analyse model).type.isValid)
    (entry : (layout model).byRecord.lookup record = some found) (isState : found.type = .state) :
    (∃ place, (analyse model).ComputesAt place found) ↔
      Settled (start model).registry (built model) (.rate record) := by
  have inside : record < (start model).registry.length := by
    rw [← Elimination.length_registry_of_moves (moves model)]
    exact VariableLayout.mem_order.mp ((laidOut model).entry record found entry).1
  have given := kind_start_of_state entry isState
  rw [computesAt_iff valid entry, equation_isSome_iff valid record inside]
  simp [given]

/-- In a model that can be solved, the states are the differentiated classes other than that of the
variable of integration. What computes a state is the equation of a rate; there is exactly one if
the equations settle the rate, and none otherwise. The model is one of differential equations
exactly if it has a derivative by a variable. -/
theorem state_computed_iff_settled (model : Model) (valid : (analyse model).type.isValid) :
    ((analyse model).type = .ode ↔ ∃ record, IsMentioned model .bound record) ∧
    (∀ found, found ∈ (analyse model).states ↔
      ∃ record, (layout model).byRecord.lookup record = some found ∧
        IsMentioned model .differentiated record ∧ ¬IsMentioned model .bound record) ∧
    ∀ record found, (layout model).byRecord.lookup record = some found → found.type = .state →
      (∀ result ∈ (analyse model).equations, result.computes = found → result.kind = .rate) ∧
      (Settled (start model).registry (built model) (.rate record) →
        ∃! place, (analyse model).ComputesAt place found) ∧
      (¬Settled (start model).registry (built model) (.rate record) →
        ∀ place, ¬(analyse model).ComputesAt place found) := by
  refine ⟨type_eq_ode_iff valid, fun found => mem_states_iff valid, ?_⟩
  intro record found entry isState
  refine ⟨?_, fun settled => ?_, fun open_ place computed => ?_⟩
  · rintro result membership rfl
    obtain ⟨place, reported⟩ := List.mem_iff_getElem?.mp membership
    have type := computedType?_eq valid reported
    rw [isState] at type
    cases kind : result.kind <;> rw [kind] at type <;> first | rfl | cases type
  · obtain ⟨place, computed⟩ := (computesAt_iff_settled valid entry isState).mpr settled
    exact ⟨place, computed, fun other computedOther =>
      place_eq_of_computesAt valid computedOther computed⟩
  · exact open_ ((computesAt_iff_settled valid entry isState).mp ⟨place, computed⟩)

/-- Two states whose rates are equal, and no equation more. -/
def linkedRates : Model :=
  single "linked_rates"
    [⟨"t", "second", none, none⟩, ⟨"x", "dimensionless", some (.number 1), none⟩,
      ⟨"y", "dimensionless", some (.number 2), none⟩]
    ("<math><apply><eq/><apply><diff/><bvar><ci>t</ci></bvar><ci>x</ci></apply>" ++
      "<apply><diff/><bvar><ci>t</ci></bvar><ci>y</ci></apply></apply></math>")

theorem gathered_linkedRates : Gathered.ofIndex (index linkedRates) =
    ⟨[⟨0, 0, 0, .unknown, none, none⟩, ⟨1, 1, 1, .constant, none, none⟩,
      ⟨2, 2, 2, .constant, none, none⟩],
      [.new (.apply .assignment
        (.apply .diff (.apply .bvar (.reference 0) .absent) (.reference 1))
        (.apply .diff (.apply .bvar (.reference 0) .absent) (.reference 2))) 0 [] [1, 2]], []⟩ := by
  cbv

theorem derivatives_linkedRates : derivatives linkedRates =
    ⟨⟨[⟨0, 0, 0, .integrationVariable, none, none⟩, ⟨1, 1, 1, .state, none, none⟩,
      ⟨2, 2, 2, .state, none, none⟩],
      (Gathered.ofIndex (index linkedRates)).equations, []⟩, some 0⟩ := by
  rw [derivatives, gathered_linkedRates]
  cbv

theorem start_linkedRates : start linkedRates =
    ⟨[.new (.apply .assignment
        (.apply .diff (.apply .bvar (.reference 0) .absent) (.reference 1))
        (.apply .diff (.apply .bvar (.reference 0) .absent) (.reference 2))) 0 [] [1, 2]],
      [⟨0, 0, 0, .integrationVariable, none, none⟩, ⟨1, 1, 1, .state, none, none⟩,
        ⟨2, 2, 2, .state, none, none⟩], .afterConstants 0⟩ := by
  have constants : ∀ record ∈ (derivatives linkedRates).gathered.registry,
      record.kind ≠ .constant := by
    rw [derivatives_linkedRates]
    decide
  rw [start, startOfElimination_of_no_constants _ constants, derivatives_linkedRates,
    gathered_linkedRates]

/-- Two rates stay open, so nothing becomes of the records. -/
theorem registry_linkedRates : (final linkedRates).registry =
    [⟨0, 0, 0, .integrationVariable, none, none⟩, ⟨1, 1, 1, .state, none, none⟩,
      ⟨2, 2, 2, .state, none, none⟩] := by
  rw [final, start_linkedRates]
  cbv

theorem reported_linkedRates : reported linkedRates = [] := by
  rw [reported, final, start_linkedRates]
  cbv

theorem type_linkedRates : (analyse linkedRates).type = .ode := by
  have gathered : (Gathered.ofIndex (index linkedRates)).issues = [] := by
    rw [gathered_linkedRates]
  have derived : (derivatives linkedRates).gathered.issues = [] := by rw [derivatives_linkedRates]
  rw [type_analyse gathered derived, registry_linkedRates, derivatives_linkedRates]
  rfl

theorem valid_linkedRates : (analyse linkedRates).type.isValid := by
  rw [type_linkedRates]
  rfl

/-- A model passes as one of differential equations although nothing computes its two states. -/
theorem linkedRates_computes_no_state :
    (analyse linkedRates).type = .ode ∧ (analyse linkedRates).states.length = 2 ∧
      ∀ found ∈ (analyse linkedRates).states,
        ∀ place, ¬(analyse linkedRates).ComputesAt place found := by
  have states : (analyse linkedRates).states = (layout linkedRates).states := by
    obtain ⟨-, -, issues, equal⟩ := analyse_eq valid_linkedRates
    rw [equal]
    rfl
  have noEquations : (analyse linkedRates).equations = [] := by
    rw [equations_eq valid_linkedRates, reported_linkedRates]
    rfl
  refine ⟨type_linkedRates, ?_, ?_⟩
  · rw [states, layout, registry_linkedRates]
    cbv
  · rintro found - place ⟨result, reported, -⟩
    rw [noEquations] at reported
    cases reported

/-- The mass on the scales has one rate. -/
theorem weighed_rate_settled :
    (analyse weighed).type.isValid ∧
      ∃ found, (layout weighed).byRecord.lookup 1 = some found ∧ found.type = .state ∧
        ∃! place, (analyse weighed).ComputesAt place found := by
  obtain ⟨-, -, computed⟩ := state_computed_iff_settled weighed valid_weighed
  have entry : (layout weighed).byRecord.lookup 1 =
      some ⟨⟨"scales", "x", "kilogram", some (.number 1)⟩,
        ⟨"scales", "x", "kilogram", some (.number 1)⟩, .state, 0⟩ := by
    rw [layout, registry_weighed]
    cbv
  have isState : ((start weighed).registry.get 1).kind = .state := by
    rw [kind_start, derivatives_weighed]
    rfl
  have settled : Settled (start weighed).registry (built weighed) (.rate 1) := by
    rw [built, gathered_weighed]
    refine .equation _ (.rate 1) List.mem_cons_self ?_ isState ?_
    · simp [OrderedEquation.items, OrderedEquation.new]
    · simp [OrderedEquation.items, OrderedEquation.new]
  exact ⟨valid_weighed, _, entry, rfl, (computed 1 _ entry rfl).2.1 settled⟩

end Stage

end ComponentModel.Analysis
