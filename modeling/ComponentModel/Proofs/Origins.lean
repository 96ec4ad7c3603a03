import ComponentModel.Proofs.Bindings
import ComponentModel.Proofs.Classes

/-!
# Where states and the variable of integration come from

A class is the variable of integration only because a derivative is by one of its declarations,
and a state only because one of its declarations is differentiated. Together with the classes that
derivatives are known to settle, this tells by the equations alone which classes they are.
-/

namespace ComponentModel.Analysis

open Equation (Expr Role)
open Equation.Expr (Finding)

/-- Where the kinds of differentiated classes come from. -/
structure Traced (index : Index) (gathered : Gathered) (findings : List Finding)
    (state : Differentiated) : Prop where
  derived : Derived index gathered findings state
  first : ∀ first, state.integration = some first →
    ∃ declaration, .integrationVariable declaration ∈ findings ∧
      index.equivalent first declaration
  integration : ∀ number,
    (state.gathered.registry.get number).kind = .integrationVariable →
    ∃ first, state.integration = some first ∧ gathered.registry.find? index first = some number
  states : ∀ number, (state.gathered.registry.get number).kind = .state ∨
      (state.gathered.registry.get number).kind = .shouldBeState →
    ∃ declaration, .state declaration ∈ findings ∧
      gathered.registry.find? index declaration = some number

namespace Traced

variable {index : Index} {gathered : Gathered} {findings : List Finding} {state : Differentiated}

theorem start (sound : gathered.Sound index) : Traced index gathered [] ⟨gathered, none⟩ := by
  have fresh : ∀ number, (gathered.registry.get number).kind = .unknown ∨
      (gathered.registry.get number).kind = .constant :=
    Prepared.get_of_mem (fun record => record.kind = .unknown ∨ record.kind = .constant)
      (fun record membership => (sound.fresh record membership).kind) (Or.inl rfl)
  refine ⟨⟨rfl, rfl, fun record membership => (sound.fresh record membership).isInitial, by simp,
    by simp, by simp⟩, by simp, ?_, ?_⟩
  · intro number isIntegration
    rcases fresh number with same | same <;> cases same.symm.trans isIntegration
  · rintro number (isState | isState)
    all_goals rcases fresh number with same | same <;> cases same.symm.trans isState

/-- A finding that changes neither the records nor the variable of integration. -/
theorem unchanged (traced : Traced index gathered findings state) {finding : Finding}
    {next : Differentiated} (derived : Derived index gathered (findings ++ [finding]) next)
    (registry : next.gathered.registry = state.gathered.registry)
    (integration : next.integration = state.integration) :
    Traced index gathered (findings ++ [finding]) next where
  derived := derived
  first := by
    intro first isFirst
    obtain ⟨declaration, membership, same⟩ := traced.first first (integration ▸ isFirst)
    exact ⟨declaration, List.mem_append_left _ membership, same⟩
  integration := by
    intro number isIntegration
    rw [registry] at isIntegration
    rw [integration]
    exact traced.integration number isIntegration
  states := by
    intro number isState
    rw [registry] at isState
    obtain ⟨declaration, membership, found⟩ := traced.states number isState
    exact ⟨declaration, List.mem_append_left _ membership, found⟩

theorem makeState (traced : Traced index gathered findings state) (declaration : Nat) :
    Traced index gathered (findings ++ [.state declaration])
      (state.note index (.state declaration)) := by
  have derived := traced.derived.note (.state declaration)
  cases found : gathered.registry.find? index declaration with
  | none =>
      refine traced.unchanged derived ?_ ?_ <;>
        simp [Differentiated.note, traced.derived.find?, found]
  | some number =>
      have inside : number < state.gathered.registry.length :=
        Registry.lt_of_find? ((traced.derived.find? declaration).trans found)
      have equal : state.note index (.state declaration) =
          { state with
            gathered := { state.gathered with
              registry := state.gathered.registry.change number Record.makeState } } := by
        simp [Differentiated.note, traced.derived.find?, found]
      have kind_self : ((state.gathered.registry.change number Record.makeState).get number).kind =
          (state.gathered.registry.get number).kind.madeState := by
        rw [Registry.get_change_self _ inside]
        rfl
      rw [equal] at derived ⊢
      refine ⟨derived, ?_, ?_, ?_⟩
      · intro first isFirst
        obtain ⟨bound, membership, same⟩ := traced.first first isFirst
        exact ⟨bound, List.mem_append_left _ membership, same⟩
      · intro other isIntegration
        refine traced.integration other ?_
        by_cases same : number = other
        · subst same
          simp only [kind_self] at isIntegration
          cases kind : (state.gathered.registry.get number).kind <;>
            simp_all [Kind.madeState]
        · rwa [Registry.get_change_of_ne _ same] at isIntegration
      · intro other isState
        by_cases same : number = other
        · subst same
          exact ⟨declaration, by simp, found⟩
        · simp only [Registry.get_change_of_ne _ same] at isState
          obtain ⟨earlier, membership, foundEarlier⟩ := traced.states other isState
          exact ⟨earlier, List.mem_append_left _ membership, foundEarlier⟩

/-- The first variable of integration. -/
theorem integrateFirst (traced : Traced index gathered findings state)
    (unset : state.integration = none) {declaration first : Nat}
    (same : index.equivalent first declaration) {next : Gathered}
    (derived : Derived index gathered (findings ++ [.integrationVariable declaration])
      ⟨next, some first⟩)
    (registry : next.registry =
      match state.gathered.registry.find? index declaration with
      | some number => state.gathered.registry.change number fun record =>
          (record.track first false).makeIntegrationVariable
      | none => state.gathered.registry) :
    Traced index gathered (findings ++ [.integrationVariable declaration])
      ⟨next, some first⟩ := by
  have none : ∀ number, (state.gathered.registry.get number).kind ≠ .integrationVariable := by
    intro number isIntegration
    obtain ⟨set, isSet, -⟩ := traced.integration number isIntegration
    rw [unset] at isSet
    cases isSet
  have foundSame : gathered.registry.find? index first =
      gathered.registry.find? index declaration := Registry.find?_of_equivalent same
  rw [traced.derived.find?] at registry
  -- Every record is as before, or it is the one of the variable of integration.
  have kinds : ∀ number, (next.registry.get number).kind =
        (state.gathered.registry.get number).kind ∨
      ((next.registry.get number).kind = .integrationVariable ∧
        gathered.registry.find? index first = some number) := by
    intro number
    cases found : gathered.registry.find? index declaration with
    | none =>
        rw [found] at registry
        exact Or.inl (by rw [registry])
    | some changed =>
        have inside : changed < state.gathered.registry.length :=
          Registry.lt_of_find? ((traced.derived.find? declaration).trans found)
        rw [found] at registry
        by_cases equal : changed = number
        · subst equal
          refine Or.inr ⟨?_, foundSame.trans found⟩
          simp only [registry]
          rw [Registry.get_change_self _ inside]
          rfl
        · refine Or.inl ?_
          simp only [registry]
          rw [Registry.get_change_of_ne _ equal]
  refine ⟨derived, ?_, ?_, ?_⟩
  · intro reported isReported
    obtain rfl := Option.some.inj isReported
    exact ⟨declaration, by simp, same⟩
  · intro number isIntegration
    rcases kinds number with kept | ⟨-, found⟩
    · exact absurd (kept.symm.trans isIntegration) (none number)
    · exact ⟨first, rfl, found⟩
  · intro number isState
    rcases kinds number with kept | ⟨changed, -⟩
    · rw [kept] at isState
      obtain ⟨earlier, membership, found⟩ := traced.states number isState
      exact ⟨earlier, List.mem_append_left _ membership, found⟩
    · rw [changed] at isState
      rcases isState with impossible | impossible <;> cases impossible

theorem integrateBy (traced : Traced index gathered findings state) (declaration : Nat) :
    Traced index gathered (findings ++ [.integrationVariable declaration])
      (state.integrateBy index declaration) := by
  have derived := traced.derived.integrateBy declaration
  unfold Differentiated.integrateBy at derived ⊢
  split
  case h_1 unset =>
    simp only [unset] at derived
    refine traced.integrateFirst unset (Derived.equivalent_reported index declaration) derived ?_
    cases (index.declaration declaration).isInitialised <;> rfl
  case h_2 first isFirst =>
    simp only [isFirst] at derived
    split
    case isTrue same =>
      rw [if_pos same] at derived
      exact traced.unchanged derived rfl rfl
    case isFalse other =>
      rw [if_neg other, ← isFirst] at derived
      exact traced.unchanged derived rfl rfl

/-- Noting one more finding. -/
theorem note (traced : Traced index gathered findings state) (finding : Finding) :
    Traced index gathered (findings ++ [finding]) (state.note index finding) := by
  cases finding with
  | notFirstOrder declaration =>
      exact traced.unchanged (traced.derived.note (.notFirstOrder declaration)) rfl rfl
  | state declaration => exact traced.makeState declaration
  | integrationVariable declaration => exact traced.integrateBy declaration

/-- All findings of the equations. -/
theorem ofGathered (sound : gathered.Sound index) :
    Traced index gathered (gathered.equations.flatMap fun equation => equation.expr.findings)
      (Differentiated.ofGathered index gathered) :=
  Differentiated.ofGathered_induction (start sound) fun _ finding _ traced => traced.note finding

end Traced

/-! ## What the equations say -/

namespace Stage

variable {model : Model} {record declaration : Nat} {found : AnalysedVariable}

/-- A declaration of a class is mentioned in a role in an equation. -/
def IsMentioned (model : Model) (role : Role) (record : Nat) : Prop :=
  ∃ source ∈ built model, ∃ declaration, (role, declaration) ∈ source.expr.mentions .plain ∧
    (final model).registry.find? (index model) declaration = some record

theorem traced (model : Model) : Traced (index model) (Gathered.ofIndex (index model))
    ((Gathered.ofIndex (index model)).equations.flatMap fun equation => equation.expr.findings)
    (derivatives model) :=
  Traced.ofGathered (Gathered.sound_ofIndex (index model))

/-- What is found in the equations is mentioned in one of them. -/
theorem exists_mention {finding : Finding} (membership : finding ∈
      (Gathered.ofIndex (index model)).equations.flatMap fun equation => equation.expr.findings)
    (firstOrder : ∀ declaration, finding ≠ .notFirstOrder declaration) :
    ∃ source ∈ built model, ∃ mention ∈ source.expr.mentions .plain,
      Expr.Finding.ofMention? mention = some finding := by
  obtain ⟨source, inModel, inSource⟩ := List.mem_flatMap.mp membership
  obtain ⟨mention, mentioned, means⟩ :=
    Expr.exists_mention_of_mem_findingsBelow [] inSource firstOrder
  exact ⟨source, inModel, mention, mentioned, means⟩

theorem kind_start (model : Model) (record : Nat) :
    ((start model).registry.get record).kind =
      ((derivatives model).gathered.registry.get record).kind :=
  kind_startOfElimination (index model) (derivatives model).gathered record

/-- What is known about a class before the equations are looked at stays, if the model can be
solved. -/
theorem kind_final (valid : (analyse model).type.isValid)
    (known : ((start model).registry.get record).kind ≠ .unknown) :
    ((final model).registry.get record).kind = ((start model).registry.get record).kind := by
  cases Elimination.standing_of_moves (ready model) (moves model) record with
  | untouched same => exact same
  | twice _ twice => exact (kind_ne_overconstrained valid _ twice).elim
  | value unknown => exact absurd unknown known
  | rate isState left =>
      rw [isState]
      exact left.resolve_right (kind_ne_overconstrained valid _)

/-- The type of a class that is known before any equation is solved. -/
theorem type_of_known (valid : (analyse model).type.isValid)
    (entry : (layout model).byRecord.lookup record = some found)
    (known : ((start model).registry.get record).kind ≠ .unknown) :
    found.type = .integrationVariable ∨ found.type = .state ∨ found.type = .constant := by
  have type := (isEntry entry).type
  rw [kind_final valid known] at type
  have initial := (ready model).initial record
  cases kind : ((start model).registry.get record).kind <;> rw [kind] at type initial
  case integrationVariable => exact Or.inl (Option.some.inj type).symm
  case state => exact Or.inr (Or.inl (Option.some.inj type).symm)
  case constant => exact Or.inr (Or.inr (Option.some.inj type).symm)
  case unknown => exact absurd kind known
  all_goals first | cases type | cases initial

/-- All derivatives are by the variable of integration. -/
theorem exists_integration (valid : (analyse model).type.isValid) {source : OrderedEquation}
    (membership : source ∈ built model)
    (mentioned : (.bound, declaration) ∈ source.expr.mentions .plain) :
    ∃ first, (derivatives model).integration = some first ∧
      (index model).equivalent first declaration := by
  obtain ⟨fine, -⟩ := analyse_eq valid
  have noted : Finding.integrationVariable declaration ∈
      (Gathered.ofIndex (index model)).equations.flatMap fun equation => equation.expr.findings :=
    List.mem_flatMap.mpr ⟨source, membership, Expr.mem_findingsBelow [] mentioned rfl⟩
  exact (traced model).derived.bound fine declaration noted

/-- The variable that bounds a derivative is the variable of integration. -/
theorem type_of_bound (valid : (analyse model).type.isValid) {source : OrderedEquation}
    (membership : source ∈ built model)
    (mentioned : (.bound, declaration) ∈ source.expr.mentions .plain)
    (bound : BoundTo model declaration record found) : found.type = .integrationVariable := by
  obtain ⟨first, integration, same⟩ := exists_integration valid membership mentioned
  have recorded := bound.recorded
  rw [find?_final, ← Registry.find?_of_equivalent same] at recorded
  have integrated := (traced model).derived.integrated first record integration recorded
  rw [← kind_start] at integrated
  have role := (isEntry bound.entry).type
  rw [kind_final valid (by simp [integrated]), integrated] at role
  exact (Option.some.inj role).symm

/-- What a class is found to be by its derivatives was known from the start. -/
theorem kind_start_of_final {kind : Kind} (left : ((final model).registry.get record).kind = kind)
    (known : kind = .integrationVariable ∨ kind = .state) :
    ((derivatives model).gathered.registry.get record).kind = kind := by
  rw [← kind_start]
  cases Elimination.standing_of_moves (ready model) (moves model) record with
  | untouched same => exact same.symm.trans left
  | twice _ same => simp [← left, same] at known
  | value _ same => rcases same with same | same | same | same <;> simp [← left, same] at known
  | rate isState same =>
      rcases same with same | same
      · rw [isState, ← left, same]
      · simp [← left, same] at known

/-- A state was known to be one from the start. -/
theorem kind_start_of_state (entry : (layout model).byRecord.lookup record = some found)
    (isState : found.type = .state) : ((start model).registry.get record).kind = .state := by
  have type := (isEntry entry).type
  rw [isState] at type
  rw [kind_start]
  refine kind_start_of_final ?_ (Or.inr rfl)
  cases kind : ((final model).registry.get record).kind <;> simp_all [VariableType.ofKind?]

/-- The class of the variable of integration is mentioned as such. -/
theorem exists_bound {first : Nat} (integration : (derivatives model).integration = some first) :
    ∃ source ∈ built model, ∃ declaration,
      (.bound, declaration) ∈ source.expr.mentions .plain ∧
        (index model).equivalent first declaration := by
  obtain ⟨declaration, membership, same⟩ := (traced model).first first integration
  obtain ⟨source, inModel, ⟨role, other⟩, mentioned, means⟩ := exists_mention membership (by simp)
  cases role <;> cases means
  exact ⟨source, inModel, declaration, mentioned, same⟩

/-- The record of the variable of integration was found by the derivatives. -/
theorem exists_first (entry : (layout model).byRecord.lookup record = some found)
    (isIntegration : found.type = .integrationVariable) :
    ∃ first, (derivatives model).integration = some first ∧
      (final model).registry.find? (index model) first = some record := by
  have role := (isEntry entry).type
  rw [isIntegration] at role
  have left : ((final model).registry.get record).kind = .integrationVariable := by
    cases kind : ((final model).registry.get record).kind <;> simp_all [VariableType.ofKind?]
  obtain ⟨first, integration, recorded⟩ :=
    (traced model).integration record (kind_start_of_final left (Or.inl rfl))
  exact ⟨first, integration, (find?_final model first).trans recorded⟩

/-- Exactly the class that derivatives are by is the variable of integration. -/
theorem type_eq_integrationVariable_iff (valid : (analyse model).type.isValid)
    (entry : (layout model).byRecord.lookup record = some found) :
    found.type = .integrationVariable ↔ IsMentioned model .bound record := by
  constructor
  · intro isIntegration
    obtain ⟨first, integration, recorded⟩ := exists_first entry isIntegration
    obtain ⟨source, inModel, declaration, mentioned, same⟩ := exists_bound integration
    exact ⟨source, inModel, declaration, mentioned,
      (Registry.find?_of_equivalent same).symm.trans recorded⟩
  · rintro ⟨source, inModel, declaration, mentioned, recorded⟩
    exact type_of_bound valid inModel mentioned
      (boundTo valid (mentioned_lt inModel mentioned) recorded entry)

/-- Exactly the differentiated classes, other than the one that derivatives are by, are states. -/
theorem type_eq_state_iff (valid : (analyse model).type.isValid)
    (entry : (layout model).byRecord.lookup record = some found) :
    found.type = .state ↔
      IsMentioned model .differentiated record ∧ ¬IsMentioned model .bound record := by
  have role := (isEntry entry).type
  rw [← type_eq_integrationVariable_iff valid entry]
  constructor
  · intro isState
    have known := (kind_start model record).symm.trans (kind_start_of_state entry isState)
    obtain ⟨declaration, membership, recorded⟩ := (traced model).states record (Or.inl known)
    obtain ⟨source, inModel, ⟨role, other⟩, mentioned, means⟩ :=
      exists_mention membership (by simp)
    refine ⟨⟨source, inModel, declaration, ?_, by rw [find?_final, recorded]⟩, by simp [isState]⟩
    cases role <;> cases means
    exact mentioned
  · rintro ⟨⟨source, inModel, declaration, mentioned, recorded⟩, notIntegration⟩
    have asked : .rate record ∈ source.items :=
      (rate_mem_items inModel).mpr ⟨declaration, mentioned, recorded⟩
    have differentiable := (ready model).differentiable source
      (List.mem_of_getElem? (start_getElem?.mpr (List.getElem?_of_mem inModel).choose_spec)) record
      (OrderedEquation.rate_mem_items.mp asked)
    rcases type_of_known valid entry differentiable.1 with same | same | same
    · exact absurd same notIntegration
    · exact same
    · rw [same, kind_final valid differentiable.1] at role
      cases kind : ((start model).registry.get record).kind <;>
        simp_all [VariableType.ofKind?]

/-- A model is one of differential equations exactly if a variable of integration is found. -/
theorem type_eq_ode_iff_isSome (valid : (analyse model).type.isValid) :
    (analyse model).type = .ode ↔ (derivatives model).integration.isSome := by
  obtain ⟨-, solvable, issues, equal⟩ := analyse_eq valid
  rw [equal, solved]
  unfold typeOf at solvable ⊢
  simp only at solvable ⊢
  split at solvable
  case h_4 =>
    cases (derivatives model).integration.isSome
    · simp only [Bool.false_eq_true, if_false, iff_false]
      split <;> simp
    · simp
  all_goals cases solvable

/-- A model is one of differential equations exactly if it has a derivative by a variable. -/
theorem type_eq_ode_iff (valid : (analyse model).type.isValid) :
    (analyse model).type = .ode ↔ ∃ record, IsMentioned model .bound record := by
  rw [type_eq_ode_iff_isSome valid, Option.isSome_iff_exists]
  constructor
  · rintro ⟨first, integration⟩
    obtain ⟨source, inModel, declaration, mentioned, -⟩ := exists_bound integration
    obtain ⟨record, recorded⟩ := exists_record (mentioned_lt inModel mentioned)
    exact ⟨record, source, inModel, declaration, mentioned, recorded⟩
  · rintro ⟨_, source, inModel, declaration, mentioned, -⟩
    obtain ⟨first, integration, -⟩ := exists_integration valid inModel mentioned
    exact ⟨first, integration⟩

end Stage

end ComponentModel.Analysis
