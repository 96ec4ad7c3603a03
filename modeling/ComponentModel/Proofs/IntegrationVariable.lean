import ComponentModel.Proofs.Adoption
import ComponentModel.Proofs.Determination
import ComponentModel.Proofs.FirstOrder
import ComponentModel.Model.Validation

/-!
# Initial values of the variable of integration

A variable of integration must not start with a value. When the first derivative is met, the look
at the derivatives asks the one declaration that the derivative is by, and no other declaration of
its class. So an initial value is an issue if that declaration carries it. If another one does, the
class was a constant so far, and it becomes the variable of integration without an issue.
-/

namespace ComponentModel.Analysis.Stage

open Equation (Expr)
open Equation.Expr (Finding)

variable {model : Model} {declaration representative : Nat}

/-- The declarations that derivatives are by, in the order in which they are found. -/
def bounds (model : Model) : List Nat :=
  ((built model).flatMap fun equation => equation.expr.findings).filterMap Finding.bound?

theorem mem_bounds_iff : declaration ∈ bounds model ↔
    ∃ source ∈ built model, (.bound, declaration) ∈ source.expr.mentions .plain := by
  unfold bounds
  rw [List.mem_filterMap]
  constructor
  · rintro ⟨finding, membership, isBound⟩
    obtain rfl : finding = .integrationVariable declaration := by
      cases finding <;> cases isBound
      rfl
    obtain ⟨source, inModel, ⟨role, other⟩, mentioned, means⟩ := exists_mention membership (by simp)
    cases role <;> cases means
    exact ⟨source, inModel, mentioned⟩
  · rintro ⟨source, inModel, mentioned⟩
    exact ⟨.integrationVariable declaration, List.mem_flatMap.mpr
      ⟨source, inModel, Expr.mem_findingsBelow [] mentioned rfl⟩, rfl⟩

theorem derivatives_reports (model : Model) : Differentiated.Reports (index model)
    (Gathered.ofIndex (index model))
    ((built model).flatMap fun equation => equation.expr.findings) (derivatives model) :=
  Differentiated.reports_ofGathered (index model) (Gathered.ofIndex (index model))

/-- Nothing is reported about the variable of integration before the derivatives are looked at. -/
theorem not_mem_issues_gathered (model : Model) (name : VariableName) :
    .initialisedIntegrationVariable name ∉ (Gathered.ofIndex (index model)).issues := by
  intro reported
  rcases (Gathered.gathers_ofIndex model).issues reported with ⟨place, impossible⟩ | impossible
  · cases impossible
  · exact Bool.false_ne_true impossible

/-- Only the declaration that the first derivative is by is asked for an initial value. -/
theorem mem_issues_derivatives {name : VariableName} :
    .initialisedIntegrationVariable name ∈ (derivatives model).gathered.issues ↔
      ∃ declaration ∈ (bounds model).head?,
        ((index model).declaration declaration).isInitialised ∧
          ((index model).declaration declaration).fullName = name := by
  rw [(derivatives_reports model).initialised, or_iff_right (not_mem_issues_gathered model name)]
  rfl

theorem mem_issues_analyse {name : VariableName} :
    .initialisedIntegrationVariable name ∈ (analyse model).issues ↔
      (Gathered.ofIndex (index model)).issues = [] ∧ ∃ declaration ∈ (bounds model).head?,
        ((index model).declaration declaration).isInitialised ∧
          ((index model).declaration declaration).fullName = name := by
  rw [← mem_issues_derivatives]
  rcases issues_analyse model with ⟨some, -, reported⟩ | ⟨none, -, -, reported⟩ |
    ⟨none, fine, others⟩
  · rw [reported]
    exact iff_of_false (not_mem_issues_gathered model name) fun both => some both.1
  · rw [reported, and_iff_right none]
  · rw [fine, and_iff_right none]
    exact iff_of_false (fun reported => others _ reported rfl) List.not_mem_nil

/-- An issue about derivatives ends the analysis. -/
theorem type_of_mem_issues {name : VariableName}
    (reported : .initialisedIntegrationVariable name ∈ (analyse model).issues) :
    (analyse model).type = .invalid := by
  rcases issues_analyse model with ⟨-, invalid, -⟩ | ⟨-, -, invalid, -⟩ | ⟨-, -, others⟩
  · exact invalid
  · exact invalid
  · exact absurd rfl (others _ reported)

/-! ## Models that can be solved -/

/-- While the components of a model that can be solved are visited, nothing is reported. -/
theorem issues_gathered (valid : (analyse model).type.isValid) :
    (Gathered.ofIndex (index model)).issues = [] := by
  rcases issues_analyse model with ⟨-, invalid, -⟩ | ⟨-, -, invalid, -⟩ | ⟨none, -, -⟩
  · rw [invalid] at valid
    cases valid
  · rw [invalid] at valid
    cases valid
  · exact none

/-- Nothing is reported about a model that can be solved. -/
theorem issues_eq_nil (valid : (analyse model).type.isValid) : (analyse model).issues = [] := by
  obtain ⟨derived, -⟩ := analyse_eq valid
  rw [analyse_eq_classify (issues_gathered valid) derived, issues_classify,
    List.filterMap_eq_nil_iff]
  intro number listed
  have inside : number < (final model).registry.length := by
    rw [Elimination.length_registry_of_moves (moves model), start, length_startOfElimination]
    exact mem_byName.mp listed
  obtain ⟨type, role⟩ := role_of_valid valid inside
  change openIssue? (index model) ((final model).registry.get number) = none
  unfold openIssue?
  cases kind : ((final model).registry.get number).kind <;> simp_all [VariableType.ofKind?]

/-- Without issues about initial values, no class has two of them. -/
theorem card_initialisedIn_le_one (fine : (Gathered.ofIndex (index model)).issues = [])
    (representative : Nat) : ((index model).initialisedIn representative).card ≤ 1 := by
  have surplus := Gathered.card_isSurplus model representative
  have none := (Gathered.gathers_ofIndex model).adopts.surplus
  have fine : (Gathered.ofIndex (Index.ofModel model)).issues = [] := fine
  rw [fine, List.countP_nil, eq_comm, List.countP_eq_zero] at none
  rw [Finset.filter_false_of_mem, Finset.card_empty] at surplus
  · have same : index model = Index.ofModel model := rfl
    rw [same]
    omega
  · rintro declaration inside ⟨isSurplus, -⟩
    exact none declaration (List.mem_range.mpr (Finset.mem_range.mp inside)) isSurplus

/-- What the variable of integration of a model is known by: all derivatives are by its class, and
the first declaration that a derivative is by has no initial value. -/
theorem exists_first_bound (ode : (analyse model).type = .ode) :
    ∃ declaration ∈ (bounds model).head?,
      (∃ integration, (analyse model).StandsFor (index model) declaration integration ∧
        integration.type = .integrationVariable) ∧
      (∀ other ∈ bounds model, (index model).equivalent declaration other) ∧
      ((index model).initialisedIn ((index model).classOf declaration)).card ≤ 1 ∧
      declaration ∉ (index model).initialisedIn ((index model).classOf declaration) := by
  have valid := valid_of_ode ode
  obtain ⟨fine, -⟩ := analyse_eq valid
  obtain ⟨first, integration⟩ := Option.isSome_iff_exists.mp
    ((type_eq_ode_iff_isSome valid).mp ode)
  have found := (derivatives_reports model).integration
  rw [integration] at found
  obtain ⟨declaration, isFirst, -⟩ := Option.map_eq_some_iff.mp found.symm
  have isFirst : declaration ∈ (bounds model).head? := isFirst
  have listed : declaration ∈ bounds model := List.mem_of_mem_head? isFirst
  have same {other : Nat} (member : other ∈ bounds model) :
      (index model).classOf first = (index model).classOf other := by
    obtain ⟨source, inModel, mentioned⟩ := mem_bounds_iff.mp member
    obtain ⟨set, isSet, equivalent⟩ := exists_integration valid inModel mentioned
    obtain rfl := Option.some.inj (integration.symm.trans isSet)
    exact Index.equivalent_iff.mp equivalent
  obtain ⟨source, inModel, mentioned⟩ := mem_bounds_iff.mp listed
  obtain ⟨found, stands, isIntegration, -⟩ := exists_standsFor_of_mention valid inModel mentioned
  refine ⟨declaration, isFirst, ⟨found, stands, isIntegration rfl⟩, fun other member => ?_,
    card_initialisedIn_le_one (issues_gathered valid) _, fun carries => ?_⟩
  · rw [Index.equivalent_iff, ← same listed, same member]
  · have reported := mem_issues_derivatives.mpr
      ⟨declaration, isFirst, (Index.mem_initialisedIn.mp carries).2.2, rfl⟩
    simp [fine] at reported

/-- An initial value of the variable of integration is reported exactly if the declaration that the
first derivative is by carries it, and then the model is invalid. In a model of differential
equations all derivatives are by one class, at most one declaration of which carries an initial
value, and this is not the declaration that the first derivative is by. -/
theorem integration_reported_iff_first (model : Model) :
    (∀ name, .initialisedIntegrationVariable name ∈ (analyse model).issues ↔
      (Gathered.ofIndex (index model)).issues = [] ∧ ∃ declaration ∈ (bounds model).head?,
        ((index model).declaration declaration).isInitialised ∧
          ((index model).declaration declaration).fullName = name) ∧
    (∀ name, .initialisedIntegrationVariable name ∈ (analyse model).issues →
      (analyse model).type = .invalid) ∧
    ((analyse model).type = .ode → ∃ declaration ∈ (bounds model).head?,
      (∃ integration, (analyse model).StandsFor (index model) declaration integration ∧
        integration.type = .integrationVariable) ∧
      (∀ other ∈ bounds model, (index model).equivalent declaration other) ∧
      ((index model).initialisedIn ((index model).classOf declaration)).card ≤ 1 ∧
      declaration ∉ (index model).initialisedIn ((index model).classOf declaration)) :=
  ⟨fun _ => mem_issues_analyse, fun _ => type_of_mem_issues, exists_first_bound⟩

/-! ## A clock that starts at zero -/

/-- A clock that starts at zero, and a growth by the time that it shows. -/
def clocked : Model where
  schema := "1.0"
  name := "clocked"
  units := []
  components :=
    [{ name := "clock"
       declarations := [⟨"t", "second", some (.number 0), some .public⟩]
       math := none
       components := []
       source := none },
     { name := "growth"
       declarations :=
        [⟨"t", "second", none, some .public⟩, ⟨"x", "dimensionless", some (.number 1), none⟩]
       math := some ("<math><apply><eq/><apply><diff/><bvar><ci>t</ci></bvar><ci>x</ci></apply>" ++
        "<cn>2</cn></apply></math>")
       components := []
       source := none }]
  connections := [⟨"clock", "growth", [⟨"t", "t"⟩]⟩]

theorem gathered_clocked : Gathered.ofIndex (index clocked) =
    ⟨[⟨0, 0, 0, .constant, none, none⟩, ⟨2, 2, 2, .constant, none, none⟩],
      [.new (.apply .assignment (.apply .diff (.apply .bvar (.reference 1) .absent) (.reference 2))
        (.number "2")) 1 [] [1]], []⟩ := by
  cbv

theorem derivatives_clocked : derivatives clocked =
    ⟨⟨[⟨0, 0, 0, .integrationVariable, none, none⟩, ⟨2, 2, 2, .state, none, none⟩],
      (Gathered.ofIndex (index clocked)).equations, []⟩, some 0⟩ := by
  rw [derivatives, gathered_clocked]
  cbv

theorem registry_clocked : (final clocked).registry =
    [⟨0, 0, 0, .integrationVariable, none, none⟩, ⟨2, 2, 2, .state, some 0, some 0⟩] := by
  have constants : ∀ record ∈ (derivatives clocked).gathered.registry,
      record.kind ≠ .constant := by
    rw [derivatives_clocked]
    decide
  rw [final, start, startOfElimination_of_no_constants _ constants, derivatives_clocked,
    gathered_clocked]
  cbv

theorem type_clocked : (analyse clocked).type = .ode := by
  have gathered : (Gathered.ofIndex (index clocked)).issues = [] := by rw [gathered_clocked]
  have derived : (derivatives clocked).gathered.issues = [] := by rw [derivatives_clocked]
  rw [type_analyse gathered derived, registry_clocked, derivatives_clocked]
  rfl

/-- The clock starts at zero, the growth is by the time that it shows, and nothing is reported. -/
theorem clocked_not_reported :
    clocked.validate false = .ok () ∧ (analyse clocked).type = .ode ∧
      (analyse clocked).issues = [] ∧ bounds clocked = [1] ∧
      0 ∈ (index clocked).initialisedIn ((index clocked).classOf 1) := by
  refine ⟨by decide +kernel, type_clocked, issues_eq_nil (valid_of_ode type_clocked), ?_, ?_⟩
  · rw [bounds, built, gathered_clocked]
    rfl
  · rw [Index.mem_initialisedIn]
    decide +kernel

end ComponentModel.Analysis.Stage
