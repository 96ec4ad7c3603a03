import ComponentModel.Analysis.Classification
import ComponentModel.Proofs.Elimination.Closure

/-!
# Placing the constants

Before its first pass an elimination has records that no equation has been looked at for and
equations with all their references. Placing the constants is all that remains to be done: they
take the first places among the variables that are not states, each a different one.
-/

namespace ComponentModel.Analysis

/-- Records and equations as they stand once the derivatives have been looked at. -/
structure Prepared (registry : Registry) (equations : List OrderedEquation) : Prop where
  initial : ∀ record ∈ registry, record.kind.isInitial
  unplaced : ∀ record ∈ registry, record.place = none
  uncomputed : ∀ record ∈ registry, record.equation = none
  untouched : ∀ equation ∈ equations,
    equation = .new equation.expr equation.component equation.plain equation.differentiated
  plain_nodup : ∀ equation ∈ equations, equation.plain.Nodup
  differentiated_nodup : ∀ equation ∈ equations, equation.differentiated.Nodup
  inside : ∀ equation ∈ equations, ∀ item ∈ equation.items, item.number < registry.length
  differentiable : ∀ equation ∈ equations, ∀ number ∈ equation.differentiated,
    (registry.get number).kind ≠ .unknown ∧ (registry.get number).kind ≠ .constant

/-- A record but for its place. -/
def Record.unplaced (record : Record) : Record :=
  { record with place := none }

/-- Records after the constants among some numbers have been given places from a first one on. -/
structure ConstantsPlaced (first next : Nat) (numbers : List Nat) (registry after : Registry) :
    Prop where
  length : after.length = registry.length
  same : ∀ number, (after.get number).unplaced = (registry.get number).unplaced
  first_le : first ≤ next
  kept : ∀ number, (number ∉ numbers ∨ (registry.get number).kind ≠ .constant) →
    (after.get number).place = (registry.get number).place
  placed : ∀ number ∈ numbers, (registry.get number).kind = .constant →
    ∃ place, (after.get number).place = some place ∧ first ≤ place ∧ place < next
  injective : ∀ one ∈ numbers, ∀ other ∈ numbers, (registry.get one).kind = .constant →
    (registry.get other).kind = .constant →
    (after.get one).place = (after.get other).place → one = other

namespace ConstantsPlaced

variable {first next head : Nat} {numbers : List Nat} {registry after : Registry}

theorem kind (constants : ConstantsPlaced first next numbers registry after) (number : Nat) :
    (after.get number).kind = (registry.get number).kind :=
  (congrArg Record.kind (constants.same number) :)

/-- A record that is no constant gets no place. -/
theorem skip (open_ : (registry.get head).kind ≠ .constant)
    (rest : ConstantsPlaced first next numbers registry after) :
    ConstantsPlaced first next (head :: numbers) registry after where
  length := rest.length
  same := rest.same
  first_le := rest.first_le
  kept := by
    rintro number (absent | other)
    · exact rest.kept number (Or.inl fun later => absent (List.mem_cons_of_mem head later))
    · exact rest.kept number (Or.inr other)
  placed := by
    intro number membership constant
    rcases List.mem_cons.mp membership with rfl | later
    · exact absurd constant open_
    · exact rest.placed number later constant
  injective := by
    intro one memberOne other memberOther constantOne constantOther same
    rcases List.mem_cons.mp memberOne with rfl | laterOne
    · exact absurd constantOne open_
    · rcases List.mem_cons.mp memberOther with rfl | laterOther
      · exact absurd constantOther open_
      · exact rest.injective one laterOne other laterOther constantOne constantOther same

/-- A constant gets the first place, and the others get later ones. -/
theorem take (constant : (registry.get head).kind = .constant) (inside : head < registry.length)
    (fresh : head ∉ numbers)
    (rest : ConstantsPlaced (first + 1) next numbers
      (registry.change head fun record => { record with place := some first }) after) :
    ConstantsPlaced first next (head :: numbers) registry after := by
  have sameBut : ∀ number, ((registry.change head fun record =>
      { record with place := some first }).get number).unplaced =
      (registry.get number).unplaced :=
    fun number => Registry.project_change Record.unplaced fun _ => rfl
  have sameKind : ∀ number, ((registry.change head fun record =>
      { record with place := some first }).get number).kind = (registry.get number).kind :=
    fun number => (congrArg Record.kind (sameBut number) :)
  have placeHead : (after.get head).place = some first := by
    rw [rest.kept head (Or.inl fresh), Registry.get_change_self _ inside]
  have placeRest : ∀ number ∈ numbers, (registry.get number).kind = .constant →
      ∃ place, (after.get number).place = some place ∧ first + 1 ≤ place ∧ place < next :=
    fun number later isConstant =>
      rest.placed number later ((sameKind number).trans isConstant)
  have apart : ∀ number ∈ numbers, (registry.get number).kind = .constant →
      (after.get head).place ≠ (after.get number).place := by
    intro number later isConstant same
    obtain ⟨place, isPlace, low, -⟩ := placeRest number later isConstant
    rw [placeHead, isPlace, Option.some.injEq] at same
    omega
  refine ⟨by simpa using rest.length, fun number => (rest.same number).trans (sameBut number),
    Nat.le_of_succ_le rest.first_le, ?_, ?_, ?_⟩
  · intro number left
    have different : head ≠ number := by
      rintro rfl
      rcases left with absent | other
      · exact absent List.mem_cons_self
      · exact other constant
    have kept := rest.kept number <| left.imp
      (fun absent later => absent (List.mem_cons_of_mem head later))
      (fun other isConstant => other ((sameKind number).symm.trans isConstant))
    rwa [Registry.get_change_of_ne _ different] at kept
  · intro number membership isConstant
    rcases List.mem_cons.mp membership with rfl | later
    · exact ⟨first, placeHead, Nat.le_refl _, rest.first_le⟩
    · obtain ⟨place, isPlace, low, high⟩ := placeRest number later isConstant
      exact ⟨place, isPlace, Nat.le_of_succ_le low, high⟩
  · intro one memberOne other memberOther constantOne constantOther same
    rcases List.mem_cons.mp memberOne with rfl | laterOne
    · rcases List.mem_cons.mp memberOther with rfl | laterOther
      · rfl
      · exact absurd same (apart other laterOther constantOther)
    · rcases List.mem_cons.mp memberOther with rfl | laterOther
      · exact absurd same.symm (apart one laterOne constantOne)
      · exact rest.injective one laterOne other laterOther ((sameKind one).trans constantOne)
          ((sameKind other).trans constantOther) same

end ConstantsPlaced

theorem constantsPlaced (first : Nat) {numbers : List Nat} {registry : Registry}
    (nodup : numbers.Nodup) (inside : ∀ number ∈ numbers, number < registry.length) :
    ConstantsPlaced first (placeConstants first numbers registry).1 numbers registry
      (placeConstants first numbers registry).2 := by
  induction numbers generalizing first registry with
  | nil => exact ⟨rfl, fun _ => rfl, Nat.le_refl _, fun _ _ => rfl, by simp, by simp⟩
  | cons head rest ih =>
      obtain ⟨fresh, nodupRest⟩ := List.nodup_cons.mp nodup
      have insideHead := inside head List.mem_cons_self
      have insideRest : ∀ number ∈ rest, number < registry.length :=
        fun number membership => inside number (List.mem_cons_of_mem head membership)
      unfold placeConstants
      split
      case isTrue constant =>
        exact .take (eq_of_beq constant) insideHead fresh
          (ih (first + 1) nodupRest (by simpa using insideRest))
      case isFalse other =>
        exact .skip (by simpa using other) (ih first nodupRest insideRest)

/-- Every record once, by name. -/
theorem byName_perm (index : Index) (registry : Registry) :
    (byName index registry).Perm registry.numbers :=
  List.mergeSort_perm _ _

theorem mem_byName {index : Index} {registry : Registry} {number : Nat} :
    number ∈ byName index registry ↔ number < registry.length := by
  rw [(byName_perm index registry).mem_iff]
  simp [Registry.numbers]

theorem nodup_byName (index : Index) (registry : Registry) : (byName index registry).Nodup := by
  rw [(byName_perm index registry).nodup_iff]
  exact List.nodup_range

/-- Placing the constants changes nothing but places. -/
theorem unplaced_startOfElimination (index : Index) (gathered : Gathered) (number : Nat) :
    ((startOfElimination gathered (byName index gathered.registry)).registry.get
      number).unplaced = (gathered.registry.get number).unplaced :=
  (constantsPlaced 0 (nodup_byName index gathered.registry)
    fun _ membership => mem_byName.mp membership).same number

theorem length_startOfElimination (index : Index) (gathered : Gathered) :
    (startOfElimination gathered (byName index gathered.registry)).registry.length =
      gathered.registry.length :=
  (constantsPlaced 0 (nodup_byName index gathered.registry)
    fun _ membership => mem_byName.mp membership).length

theorem kind_startOfElimination (index : Index) (gathered : Gathered) (number : Nat) :
    ((startOfElimination gathered (byName index gathered.registry)).registry.get number).kind =
      (gathered.registry.get number).kind :=
  (congrArg Record.kind (unplaced_startOfElimination index gathered number) :)

/-- Without constants there is nothing to place. -/
theorem startOfElimination_of_no_constants {gathered : Gathered} (order : List Nat)
    (none : ∀ record ∈ gathered.registry, record.kind ≠ .constant) :
    startOfElimination gathered order =
      ⟨gathered.equations, gathered.registry, .afterConstants 0⟩ := by
  have unplaced : placeConstants 0 order gathered.registry = (0, gathered.registry) := by
    induction order with
    | nil => rfl
    | cons head rest ih =>
        rw [placeConstants, if_neg, ih]
        rw [beq_iff_eq]
        by_cases inside : head < gathered.registry.length
        · exact none _ (Registry.get_mem inside)
        · simp [Registry.get_of_length_le (Nat.le_of_not_lt inside)]
  rw [startOfElimination, unplaced]

theorem representatives_startOfElimination (index : Index) (gathered : Gathered) :
    (startOfElimination gathered (byName index gathered.registry)).registry.map
        Record.representative = gathered.registry.map Record.representative := by
  apply List.ext_getElem
  · simp only [List.length_map]
    exact length_startOfElimination index gathered
  · intro number inStart inGathered
    simp only [List.length_map] at inStart inGathered
    have same := unplaced_startOfElimination index gathered number
    rw [List.getElem_map, List.getElem_map, ← Registry.get_of_lt inStart,
      ← Registry.get_of_lt inGathered]
    exact (congrArg Record.representative same :)

namespace Prepared

variable {registry : Registry} {equations : List OrderedEquation}

/-- What holds of all records of a registry holds of what is read outside of it, if it holds of
a record that nothing is known about. -/
theorem get_of_mem (property : Record → Prop) (every : ∀ record ∈ registry, property record)
    (outside : property ⟨0, 0, 0, .unknown, none, none⟩) (number : Nat) :
    property (registry.get number) := by
  by_cases inside : number < registry.length
  · exact every _ (Registry.get_mem inside)
  · rw [Registry.get_of_length_le (Nat.le_of_not_lt inside)]
    exact outside

/-- An elimination starts properly from prepared records and equations. -/
theorem start {gathered : Gathered} (prepared : Prepared gathered.registry gathered.equations)
    (index : Index) :
    Elimination.Start (startOfElimination gathered (byName index gathered.registry)) := by
  have constants := constantsPlaced 0 (nodup_byName index gathered.registry)
    fun number membership => mem_byName.mp membership
  have initial := get_of_mem (fun record => record.kind.isInitial) prepared.initial rfl
  have unplaced := get_of_mem (fun record => record.place = none) prepared.unplaced rfl
  have uncomputed := get_of_mem (fun record => record.equation = none) prepared.uncomputed rfl
  have inside : ∀ number, (gathered.registry.get number).kind = .constant →
      number ∈ byName index gathered.registry := by
    intro number constant
    rw [mem_byName]
    by_contra outside
    rw [Registry.get_of_length_le (Nat.le_of_not_lt outside)] at constant
    cases constant
  unfold startOfElimination
  generalize placeConstants 0 (byName index gathered.registry) gathered.registry = result
    at constants
  obtain ⟨next, registry⟩ := result
  have placed : ∀ number, (registry.get number).place.isSome ↔
      (gathered.registry.get number).kind = .constant := by
    intro number
    by_cases constant : (gathered.registry.get number).kind = .constant
    · obtain ⟨place, isPlace, -⟩ := constants.placed number (inside number constant) constant
      simp [show (registry.get number).place = some place from isPlace, constant]
    · have same := constants.kept number (Or.inr constant)
      simp [show (registry.get number).place = none from same.trans (unplaced number), constant]
  exact {
    initial := fun number => (constants.kind number).symm ▸ initial number
    placed := fun number => (placed number).trans (by rw [← constants.kind number])
    place_lt := by
      intro number place isPlace
      have constant := (placed number).mp (Option.isSome_of_eq_some isPlace)
      obtain ⟨other, isOther, -, bound⟩ := constants.placed number (inside number constant) constant
      obtain rfl := Option.some.inj (isPlace.symm.trans isOther)
      exact bound
    place_injective := by
      intro one other isSome same
      have constantOne := (placed one).mp isSome
      have constantOther := (placed other).mp (same ▸ isSome)
      exact constants.injective one (inside one constantOne) other (inside other constantOther)
        constantOne constantOther same
    uncomputed := fun number =>
      (congrArg Record.equation (constants.same number) :).trans (uncomputed number)
    noStates := rfl
    noOrders := rfl
    untouched := prepared.untouched
    items_nodup := fun equation membership => OrderedEquation.items_nodup
      (prepared.plain_nodup equation membership)
      (prepared.differentiated_nodup equation membership)
    inside := fun equation membership item asked =>
      constants.length.symm ▸ prepared.inside equation membership item asked
    differentiable := fun equation membership number differentiated =>
      (constants.kind number).symm ▸
        prepared.differentiable equation membership number differentiated }

end Prepared

end ComponentModel.Analysis
