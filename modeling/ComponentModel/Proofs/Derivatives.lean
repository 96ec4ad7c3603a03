import ComponentModel.Analysis.Derivatives
import ComponentModel.Proofs.Gathering
import ComponentModel.Proofs.Preparation

/-!
# After the derivatives

Looking at the derivatives settles which classes are differentiated and which one is the variable
of integration. The equations stay as they were gathered, and what an elimination starts from is
prepared for it.
-/

namespace ComponentModel.Analysis

open Equation (Expr)
open Equation.Expr (Finding)

/-! ## The first declaration of a class -/

mutual

theorem accepted_of_firstDeclaration {accept : Nat → Bool} {first found : Nat}
    (component : Component)
    (equal : firstDeclaration accept first component = some found) : accept found := by
  cases component with
  | mk name declarations math components resets =>
      unfold firstDeclaration at equal
      rw [Option.orElse_eq_or, Option.or_eq_some_iff] at equal
      rcases equal with here | ⟨-, below⟩
      · exact List.find?_some here
      · exact accepted_of_firstDeclarationAmong components below

theorem accepted_of_firstDeclarationAmong {accept : Nat → Bool} {first found : Nat}
    (components : List Component)
    (equal : firstDeclarationAmong accept first components = some found) : accept found := by
  cases components with
  | nil => cases equal
  | cons component rest =>
      unfold firstDeclarationAmong at equal
      rw [Option.orElse_eq_or, Option.or_eq_some_iff] at equal
      rcases equal with here | ⟨-, later⟩
      · exact accepted_of_firstDeclaration component here
      · exact accepted_of_firstDeclarationAmong rest later

end

theorem Index.equivalent_comm (index : Index) (one other : Nat) :
    index.equivalent one other = index.equivalent other one :=
  BEq.comm

theorem equivalent_of_firstOfModel? {index : Index} {declaration first : Nat}
    (found : index.firstOfModel? declaration = some first) :
    index.equivalent declaration first :=
  accepted_of_firstDeclarationAmong index.trees found

/-! ## Noting the findings -/

/-- What holds before the first finding and is kept by noting one more holds of all findings. -/
theorem Differentiated.ofGathered_induction {index : Index} {gathered : Gathered}
    {property : List Finding → Differentiated → Prop} (start : property [] ⟨gathered, none⟩)
    (step : ∀ noted finding state, property noted state →
      property (noted ++ [finding]) (state.note index finding)) :
    property (gathered.equations.flatMap fun equation => equation.expr.findings)
      (Differentiated.ofGathered index gathered) := by
  unfold Differentiated.ofGathered
  generalize (gathered.equations.flatMap fun equation => equation.expr.findings) = remaining
  suffices every : ∀ noted state, property noted state →
      property (noted ++ remaining) (remaining.foldl (Differentiated.note index) state) from
    every [] _ start
  induction remaining with
  | nil =>
      intro noted state holds
      simpa using holds
  | cons head rest ih =>
      intro noted state holds
      simpa using ih (noted ++ [head]) _ (step noted head state holds)

/-- A record as far as derivatives settle it. -/
structure Record.IsInitial (record : Record) : Prop where
  kind : record.kind.isInitial
  place : record.place = none
  equation : record.equation = none

theorem Record.IsFresh.isInitial {record : Record} (fresh : record.IsFresh) :
    record.IsInitial where
  kind := by rcases fresh.kind with kind | kind <;> rw [kind] <;> rfl
  place := fresh.place
  equation := fresh.equation

theorem Record.IsInitial.makeState {record : Record} (initial : record.IsInitial) :
    record.makeState.IsInitial where
  kind := by
    have kind := initial.kind
    unfold Record.makeState
    cases equal : record.kind <;> simp_all [Kind.isInitial, Kind.madeState]
  place := initial.place
  equation := initial.equation

theorem Record.IsInitial.integrate {record : Record} (initial : record.IsInitial)
    (first : Nat) : (record.track first false).makeIntegrationVariable.IsInitial :=
  ⟨rfl, initial.place, initial.equation⟩

/-- Whether a kind is one of a differentiated class. -/
def Kind.IsDifferentiated (kind : Kind) : Prop :=
  kind ≠ .unknown ∧ kind ≠ .constant

/-- What the findings noted so far have made of what has been gathered. -/
structure Derived (index : Index) (gathered : Gathered) (findings : List Finding)
    (state : Differentiated) : Prop where
  equations : state.gathered.equations = gathered.equations
  representatives : state.gathered.registry.map Record.representative =
    gathered.registry.map Record.representative
  initial : ∀ record ∈ state.gathered.registry, record.IsInitial
  /-- A differentiated class is known to be one. -/
  states : ∀ declaration number, .state declaration ∈ findings →
    gathered.registry.find? index declaration = some number →
    (state.gathered.registry.get number).kind.IsDifferentiated
  /-- The variable of integration is known to be one. -/
  integrated : ∀ first number, state.integration = some first →
    gathered.registry.find? index first = some number →
    (state.gathered.registry.get number).kind = .integrationVariable
  /-- All derivatives are by the same variable, or there are issues. -/
  bound : state.gathered.issues = [] → ∀ declaration,
    .integrationVariable declaration ∈ findings →
    ∃ first, state.integration = some first ∧ index.equivalent first declaration

namespace Derived

variable {index : Index} {gathered : Gathered} {findings : List Finding} {state : Differentiated}

/-- Which record stands for a declaration does not change. -/
theorem find? (derived : Derived index gathered findings state) (declaration : Nat) :
    state.gathered.registry.find? index declaration =
      gathered.registry.find? index declaration :=
  Registry.find?_congr index declaration derived.representatives

theorem Kind.isDifferentiated_madeState (kind : Kind) : kind.madeState.IsDifferentiated := by
  cases kind <;> exact ⟨by simp [Kind.madeState], by simp [Kind.madeState]⟩

/-- A finding that is an issue. -/
theorem report (derived : Derived index gathered findings state) {finding : Finding}
    (other : ∀ declaration, finding ≠ .state declaration) (issue : Issue) :
    Derived index gathered (findings ++ [finding])
      { state with gathered := state.gathered.report issue } where
  equations := derived.equations
  representatives := derived.representatives
  initial := derived.initial
  states := by
    intro declaration number membership found
    rcases List.mem_append.mp membership with earlier | new
    · exact derived.states declaration number earlier found
    · exact absurd (List.mem_singleton.mp new).symm (other declaration)
  integrated := derived.integrated
  bound := by
    intro none
    simp [Gathered.report] at none

/-- The kind of a record that a finding changes. -/
theorem change (derived : Derived index gathered findings state) (number : Nat)
    (update : Record → Record)
    (representative : ∀ record, (update record).representative = record.representative)
    (initial : ∀ record, record.IsInitial → (update record).IsInitial)
    (differentiated : ∀ record, record.kind.IsDifferentiated →
      (update record).kind.IsDifferentiated)
    (integrated : ∀ record, record.kind = .integrationVariable →
      (update record).kind = .integrationVariable) :
    Derived index gathered findings
      { state with
        gathered := { state.gathered with
          registry := state.gathered.registry.change number update } } where
  equations := derived.equations
  representatives :=
    (Registry.map_representative_change update (representative _)).trans derived.representatives
  initial := Registry.forall_mem_change derived.initial initial
  states := fun declaration other membership found =>
    Registry.get_change_of_kept (fun record => record.kind.IsDifferentiated)
      differentiated (derived.states declaration other membership found)
  integrated := fun first other isFirst found =>
    Registry.get_change_of_kept (fun record => record.kind = .integrationVariable)
      integrated (derived.integrated first other isFirst found)
  bound := derived.bound

theorem makeState (derived : Derived index gathered findings state) (declaration : Nat) :
    Derived index gathered (findings ++ [.state declaration])
      (state.note index (.state declaration)) := by
  unfold Differentiated.note
  simp only [derived.find?]
  cases found : gathered.registry.find? index declaration with
  | none =>
      refine { derived with states := ?_, bound := ?_ }
      · intro other number membership foundOther
        rcases List.mem_append.mp membership with earlier | new
        · exact derived.states other number earlier foundOther
        · cases List.mem_singleton.mp new
          simp [found] at foundOther
      · intro none other membership
        exact derived.bound none other (by simpa using membership)
  | some number =>
      have changed := derived.change number Record.makeState
        (fun _ => rfl) (fun _ => Record.IsInitial.makeState)
        (fun record _ => Kind.isDifferentiated_madeState record.kind)
        (fun record kind => by simp [Record.makeState, kind, Kind.madeState])
      refine { changed with states := ?_, bound := ?_ }
      · intro other numberOther membership foundOther
        rcases List.mem_append.mp membership with earlier | new
        · exact changed.states other numberOther earlier foundOther
        · cases List.mem_singleton.mp new
          obtain rfl := Option.some.inj (found.symm.trans foundOther)
          have inside : number < state.gathered.registry.length :=
            Registry.lt_of_find? ((derived.find? declaration).trans found)
          rw [Registry.get_change_self _ inside]
          exact Kind.isDifferentiated_madeState _
      · intro none other membership
        exact derived.bound none other (by simpa using membership)

/-- The first declaration that is reported for the variable of integration. -/
theorem equivalent_reported (index : Index) (declaration : Nat) :
    index.equivalent ((index.firstOfModel? declaration).getD declaration) declaration := by
  cases found : index.firstOfModel? declaration with
  | none => simp [Index.equivalent]
  | some first =>
      rw [Option.getD_some, Index.equivalent_comm]
      exact equivalent_of_firstOfModel? found

/-- The first variable of integration. -/
theorem integrateFirst (derived : Derived index gathered findings state)
    (unset : state.integration = none) (declaration first : Nat)
    (same : index.equivalent first declaration) {integrated : Gathered}
    (equations : integrated.equations = state.gathered.equations)
    (issues : integrated.issues = [] → state.gathered.issues = [])
    (registry : integrated.registry =
      match state.gathered.registry.find? index declaration with
      | some number => state.gathered.registry.change number fun record =>
          (record.track first false).makeIntegrationVariable
      | none => state.gathered.registry) :
    Derived index gathered (findings ++ [.integrationVariable declaration])
      ⟨integrated, some first⟩ := by
  have foundSame : gathered.registry.find? index first =
      gathered.registry.find? index declaration := Registry.find?_of_equivalent same
  rw [derived.find?] at registry
  have earlier : ∀ other, Finding.state other ∈ findings ++ [.integrationVariable declaration] →
      Finding.state other ∈ findings := by simp
  have bound : integrated.issues = [] → ∀ other,
      Finding.integrationVariable other ∈ findings ++ [.integrationVariable declaration] →
      ∃ reported, some first = some reported ∧ index.equivalent reported other := by
    intro none other membership
    rcases List.mem_append.mp membership with before | new
    · obtain ⟨set, isSet, -⟩ := derived.bound (issues none) other before
      rw [unset] at isSet
      cases isSet
    · cases List.mem_singleton.mp new
      exact ⟨first, rfl, same⟩
  cases found : gathered.registry.find? index declaration with
  | none =>
      rw [found] at registry foundSame
      exact {
        equations := equations.trans derived.equations
        representatives := registry ▸ derived.representatives
        initial := registry ▸ derived.initial
        states := fun other number membership foundOther =>
          registry ▸ derived.states other number (earlier other membership) foundOther
        integrated := by
          intro reported number isReported foundReported
          cases isReported
          simp [foundSame] at foundReported
        bound }
  | some number =>
      rw [found] at registry foundSame
      have changed := derived.change number
        (fun record => (record.track first false).makeIntegrationVariable)
        (fun _ => rfl) (fun _ initial => initial.integrate first)
        (fun _ _ => ⟨by simp [Record.makeIntegrationVariable],
          by simp [Record.makeIntegrationVariable]⟩) (fun _ _ => rfl)
      have inside : number < state.gathered.registry.length :=
        Registry.lt_of_find? ((derived.find? declaration).trans found)
      exact {
        equations := equations.trans derived.equations
        representatives := registry ▸ changed.representatives
        initial := registry ▸ changed.initial
        states := fun other numberOther membership foundOther =>
          registry ▸ changed.states other numberOther (earlier other membership) foundOther
        integrated := by
          intro reported numberReported isReported foundReported
          cases isReported
          obtain rfl := Option.some.inj (foundSame.symm.trans foundReported)
          simp only [registry]
          rw [Registry.get_change_self _ inside]
          rfl
        bound }

theorem integrateBy (derived : Derived index gathered findings state) (declaration : Nat) :
    Derived index gathered (findings ++ [.integrationVariable declaration])
      (state.integrateBy index declaration) := by
  unfold Differentiated.integrateBy
  split
  case h_1 unset =>
    refine derived.integrateFirst unset declaration _ (equivalent_reported index declaration)
      ?_ ?_ ?_
    all_goals cases (index.declaration declaration).isInitialised
    case refine_2.true => simp [Gathered.report]
    case refine_2.false => exact id
    all_goals rfl
  case h_2 first isFirst =>
    split
    case isTrue same =>
      refine { derived with states := ?_, bound := ?_ }
      · exact fun other number membership found =>
          derived.states other number (by simpa using membership) found
      · intro none other membership
        rcases List.mem_append.mp membership with earlier | new
        · exact derived.bound none other earlier
        · cases List.mem_singleton.mp new
          exact ⟨first, isFirst, same⟩
    case isFalse => exact derived.report (by simp) _

/-- Noting one more finding. -/
theorem note (derived : Derived index gathered findings state) (finding : Finding) :
    Derived index gathered (findings ++ [finding]) (state.note index finding) := by
  cases finding with
  | notFirstOrder declaration => exact derived.report (by simp) _
  | state declaration => exact derived.makeState declaration
  | integrationVariable declaration => exact derived.integrateBy declaration

/-- All findings of the equations. -/
theorem ofGathered (index : Index) {gathered : Gathered} (sound : gathered.Sound index) :
    Derived index gathered (gathered.equations.flatMap fun equation => equation.expr.findings)
      (Differentiated.ofGathered index gathered) :=
  Differentiated.ofGathered_induction
    ⟨rfl, rfl, fun record membership => (sound.fresh record membership).isInitial, by simp,
      by simp, by simp⟩
    fun _ finding _ derived => derived.note finding

end Derived

/-! ## What is gathered is prepared -/

/-- What is gathered from the declarations of a model and looked at for derivatives is prepared
for elimination. -/
theorem prepared_ofGathered (index : Index) :
    Prepared (Differentiated.ofGathered index (Gathered.ofIndex index)).gathered.registry
      (Differentiated.ofGathered index (Gathered.ofIndex index)).gathered.equations := by
  have sound := Gathered.sound_ofIndex index
  have derived := Derived.ofGathered index sound
  have refers := sound.refers
  rw [← derived.equations] at refers
  have untouched := sound.untouched
  rw [← derived.equations] at untouched
  have length :
      (Differentiated.ofGathered index (Gathered.ofIndex index)).gathered.registry.length =
        (Gathered.ofIndex index).registry.length := by
    simpa using congrArg List.length derived.representatives
  exact {
    initial := fun record membership => (derived.initial record membership).kind
    unplaced := fun record membership => (derived.initial record membership).place
    uncomputed := fun record membership => (derived.initial record membership).equation
    untouched
    plain_nodup := fun equation membership => (refers equation membership).plain_nodup
    differentiated_nodup := fun equation membership =>
      (refers equation membership).differentiated_nodup
    inside := by
      intro equation membership item asked
      rw [length]
      cases item with
      | value number =>
          obtain ⟨declaration, -, found⟩ := ((refers equation membership).plain number).mp
            (OrderedEquation.value_mem_items.mp asked)
          exact Registry.lt_of_find? found
      | rate number =>
          obtain ⟨declaration, -, found⟩ := ((refers equation membership).differentiated number).mp
            (OrderedEquation.rate_mem_items.mp asked)
          exact Registry.lt_of_find? found
    differentiable := by
      intro equation membership number differentiated
      obtain ⟨declaration, mentioned, found⟩ :=
        ((refers equation membership).differentiated number).mp differentiated
      have finding := Expr.mem_findingsBelow [] mentioned rfl
      exact derived.states declaration number
        (List.mem_flatMap.mpr ⟨equation, derived.equations ▸ membership, finding⟩) found }

end ComponentModel.Analysis
