import ComponentModel.Proofs.Classes

/-!
# Issues of an analysis

An analysis ends with the first stage that finds an issue. While components are visited, names that
are not declared and second initial values are reported. A finding about derivatives is one issue
at most, which depends on earlier findings only through the first variable of integration. If there
is none of these, the issues tell which variables are left open.
-/

namespace ComponentModel

/-- The declaration that a derivative is by. -/
def Equation.Expr.Finding.bound? : Finding → Option Nat
  | .integrationVariable declaration => some declaration
  | _ => none

namespace Analysis

open Equation.Expr (Finding)

/-- Whether an issue is about a second initial value. -/
def Issue.isInitialisedTwice : Issue → Bool
  | .initialisedTwice _ _ => true
  | _ => false

/-- While components are visited, nothing is reported about derivatives. -/
theorem Gathered.Gathers.issues {index : Index} {met : List Nat} {gathered : Gathered}
    (gathers : Gathers index met gathered) {issue : Issue} (reported : issue ∈ gathered.issues) :
    (∃ place, issue = .undefinedVariable place) ∨ issue.isInitialisedTwice := by
  induction gathers with
  | start => cases reported
  | undeclared _ place ih =>
      rcases List.mem_append.mp reported with earlier | new
      · exact ih earlier
      · exact .inl ⟨place, List.mem_singleton.mp new⟩
  | mention _ _ ih => exact ih reported
  | equation _ _ ih => exact ih reported
  | meet _ _ ih =>
      unfold addDeclaration at reported
      simp only at reported
      split at reported
      case isTrue => exact ih reported
      case isFalse =>
        split at reported
        case isTrue =>
          rcases List.mem_append.mp reported with earlier | new
          · exact ih earlier
          · exact .inr (List.mem_singleton.mp new ▸ rfl)
        case isFalse => exact ih reported

/-! ## Findings about derivatives -/

namespace Differentiated

variable {index : Index} {gathered : Gathered} {state : Differentiated} {finding : Finding}

/-- What a finding is reported as, behind others with a variable of integration. -/
def issue? (index : Index) (integration : Option Nat) : Finding → Option Issue
  | .notFirstOrder declaration => some (.notFirstOrder (index.declaration declaration).fullName)
  | .state _ => none
  | .integrationVariable declaration =>
      match integration with
      | none =>
          if (index.declaration declaration).isInitialised then
            some (.initialisedIntegrationVariable (index.declaration declaration).fullName)
          else
            none
      | some first =>
          if index.equivalent first declaration then
            none
          else
            some (.secondIntegrationVariable (index.declaration first).fullName
              (index.declaration declaration).fullName)

/-- A finding adds one issue at most. -/
theorem issues_note : (state.note index finding).gathered.issues =
    state.gathered.issues ++ (issue? index state.integration finding).toList := by
  cases finding with
  | notFirstOrder declaration => rfl
  | state declaration =>
      rw [note, issue?, Option.toList_none, List.append_nil]
      split <;> rfl
  | integrationVariable declaration =>
      simp only [note, integrateBy, issue?]
      cases state.integration with
      | none => cases (index.declaration declaration).isInitialised <;>
          simp [Gathered.report]
      | some first => cases same : index.equivalent first declaration <;>
          simp [same, Gathered.report]

/-- No finding is reported as a second initial value or as a variable that is left open. -/
theorem isStructural_of_issue? {integration : Option Nat} {issue : Issue}
    (found : issue? index integration finding = some issue) :
    issue.isStructural ∧ ¬issue.isInitialisedTwice := by
  cases finding with
  | notFirstOrder declaration => cases found; exact ⟨rfl, Bool.false_ne_true⟩
  | state declaration => cases found
  | integrationVariable declaration =>
      simp only [issue?] at found
      split at found <;> split at found <;> cases found <;> exact ⟨rfl, Bool.false_ne_true⟩

/-- The first declaration that a derivative is by decides which class is the variable of
integration. -/
theorem integration_note : (state.note index finding).integration =
    state.integration.or (finding.bound?.map fun declaration =>
      (index.firstOfModel? declaration).getD declaration) := by
  cases finding with
  | notFirstOrder declaration => simp [note, Finding.bound?]
  | state declaration =>
      simp only [note, Finding.bound?, Option.map_none, Option.or_none]
      split <;> rfl
  | integrationVariable declaration =>
      simp only [note, integrateBy, Finding.bound?]
      cases unset : state.integration with
      | none => simp
      | some first => cases same : index.equivalent first declaration <;> simp [same, unset]

/-- An issue stays, and a derivative of another order is one. -/
theorem issues_eq_nil_of_note (fine : (state.note index finding).gathered.issues = []) :
    state.gathered.issues = [] ∧ ∀ declaration, finding ≠ .notFirstOrder declaration := by
  rw [issues_note, List.append_eq_nil_iff, Option.toList_eq_nil_iff] at fine
  refine ⟨fine.1, ?_⟩
  rintro declaration rfl
  cases fine.2

/-- What has been reported, and what the variable of integration is, after some findings. -/
structure Reports (index : Index) (gathered : Gathered) (noted : List Finding)
    (state : Differentiated) : Prop where
  integration : state.integration = (noted.filterMap Finding.bound?).head?.map fun declaration =>
    (index.firstOfModel? declaration).getD declaration
  initialisedTwice : state.gathered.issues.countP Issue.isInitialisedTwice =
    gathered.issues.countP Issue.isInitialisedTwice
  /-- Only the first declaration that a derivative is by must not carry an initial value. -/
  initialised : ∀ name, .initialisedIntegrationVariable name ∈ state.gathered.issues ↔
    .initialisedIntegrationVariable name ∈ gathered.issues ∨
      ∃ declaration ∈ (noted.filterMap Finding.bound?).head?,
        (index.declaration declaration).isInitialised ∧
          (index.declaration declaration).fullName = name

theorem Reports.note {noted : List Finding} (reports : Reports index gathered noted state)
    (finding : Finding) :
    Reports index gathered (noted ++ [finding]) (state.note index finding) where
  integration := by
    rw [integration_note, reports.integration, List.filterMap_append, List.head?_append]
    cases finding <;> cases (noted.filterMap Finding.bound?).head? <;> rfl
  initialisedTwice := by
    rw [issues_note, List.countP_append, reports.initialisedTwice, Nat.add_eq_left,
      List.countP_eq_zero]
    exact fun issue found => (isStructural_of_issue? (Option.mem_toList.mp found)).2
  initialised name := by
    rw [issues_note, List.mem_append, reports.initialised, reports.integration,
      List.filterMap_append, List.head?_append]
    cases finding with
    | notFirstOrder declaration => simp [issue?, Finding.bound?]
    | state declaration => simp [issue?, Finding.bound?]
    | integrationVariable declaration =>
        rw [List.filterMap_cons_some (show Finding.bound? _ = some _ from rfl)]
        simp only [issue?]
        cases (noted.filterMap Finding.bound?).head? with
        | none => cases initialised : (index.declaration declaration).isInitialised <;>
            simp [initialised, eq_comm (b := name)]
        | some first => cases same : index.equivalent first declaration <;> simp

theorem reports_ofGathered (index : Index) (gathered : Gathered) :
    Reports index gathered (gathered.equations.flatMap fun equation => equation.expr.findings)
      (ofGathered index gathered) :=
  ofGathered_induction ⟨rfl, rfl, by simp⟩ fun _ finding _ reports => reports.note finding

end Differentiated

/-! ## All stages -/

namespace Stage

variable {model : Model} {issue : Issue}

/-- Variables that are left open are no structural issues. -/
theorem isStructural_openIssue? {index : Index} {record : Record}
    (isOpen : openIssue? index record = some issue) : ¬issue.isStructural := by
  unfold openIssue? at isOpen
  cases kind : record.kind <;> rw [kind] at isOpen <;> cases isOpen <;> exact Bool.false_ne_true

/-- An analysis ends with the first stage that finds an issue. -/
theorem issues_analyse (model : Model) :
    ((Gathered.ofIndex (index model)).issues ≠ [] ∧ (analyse model).type = .invalid ∧
      (analyse model).issues = (Gathered.ofIndex (index model)).issues) ∨
    ((Gathered.ofIndex (index model)).issues = [] ∧ (derivatives model).gathered.issues ≠ [] ∧
      (analyse model).type = .invalid ∧
      (analyse model).issues = (derivatives model).gathered.issues) ∨
    ((Gathered.ofIndex (index model)).issues = [] ∧ (derivatives model).gathered.issues = [] ∧
      ∀ issue ∈ (analyse model).issues, ¬issue.isStructural) := by
  by_cases gathered : (Gathered.ofIndex (index model)).issues = []
  · by_cases derived : (derivatives model).gathered.issues = []
    · refine .inr (.inr ⟨gathered, derived, fun issue reported => ?_⟩)
      rw [analyse_eq_classify gathered derived] at reported
      unfold classify at reported
      simp only at reported
      split at reported
      all_goals
        obtain ⟨number, -, isOpen⟩ := List.mem_filterMap.mp reported
        exact isStructural_openIssue? isOpen
    · refine .inr (.inl ⟨gathered, derived, ?_⟩)
      simp_all [analyse, index, derivatives, AnalysedModel.unsolved]
  · refine .inl ⟨gathered, ?_⟩
    simp_all [analyse, index, AnalysedModel.unsolved]

/-- What is reported before the variables are classified is structural. -/
theorem isStructural_ofIndex (reported : issue ∈ (Gathered.ofIndex (index model)).issues) :
    issue.isStructural := by
  rcases (Gathered.gathers_ofIndex model).issues reported with ⟨place, rfl⟩ | twice
  · rfl
  · cases issue <;> first | rfl | cases twice

theorem isStructural_derivatives (reported : issue ∈ (derivatives model).gathered.issues) :
    issue.isStructural := by
  let structural (_ : List Finding) (state : Differentiated) : Prop :=
    ∀ issue ∈ state.gathered.issues, issue.isStructural
  have first : structural [] ⟨Gathered.ofIndex (index model), none⟩ :=
    fun _ gathered => isStructural_ofIndex gathered
  refine Differentiated.ofGathered_induction first ?_ issue reported
  intro _ finding state earlier issue reported
  rw [Differentiated.issues_note, List.mem_append] at reported
  rcases reported with old | new
  · exact earlier issue old
  · exact (Differentiated.isStructural_of_issue? (Option.mem_toList.mp new)).1

/-- Any other issue is about a variable that the elimination leaves open. -/
theorem exists_openIssue (reported : issue ∈ (analyse model).issues)
    (left : ¬issue.isStructural) :
    ∃ record, openIssue? (index model) ((final model).registry.get record) = some issue := by
  rcases issues_analyse model with ⟨-, -, same⟩ | ⟨-, -, -, same⟩ | ⟨gathered, derived, -⟩
  · exact absurd (isStructural_ofIndex (same ▸ reported)) left
  · exact absurd (isStructural_derivatives (same ▸ reported)) left
  · rw [analyse_eq_classify gathered derived] at reported
    unfold classify at reported
    simp only at reported
    split at reported
    all_goals
      obtain ⟨record, -, isOpen⟩ := List.mem_filterMap.mp reported
      exact ⟨record, isOpen⟩

/-- All issues about second initial values are found while components are visited. -/
theorem countP_isInitialisedTwice_analyse (model : Model) :
    (analyse model).issues.countP Issue.isInitialisedTwice =
      (Gathered.ofIndex (index model)).issues.countP Issue.isInitialisedTwice := by
  rcases issues_analyse model with ⟨-, -, reported⟩ | ⟨-, -, -, reported⟩ | ⟨none, -, others⟩
  · rw [reported]
  · rw [reported]
    exact (Differentiated.reports_ofGathered (index model) _).initialisedTwice
  · rw [none, List.countP_nil, List.countP_eq_zero]
    rintro (_ | _ | _ | _ | _ | _ | _ | _) reported
    case initialisedTwice => exact absurd rfl (others _ reported)
    all_goals exact Bool.false_ne_true

end Stage

end Analysis

end ComponentModel
