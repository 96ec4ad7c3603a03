import ComponentModel.Model.Validation
import ComponentModel.Proofs.Conversion
import ComponentModel.Proofs.Initialisation

/-!
# Initial values of states

The code for a model stores the number that a state starts with as it is written. What is kept for
the state is read in the units of the declaration which is reported for it: the one that carries
the initial value, unless an equation computes the rate of the state. Then it is the first
declaration of the state in the component of that equation, and nothing converts the number to its
units.
-/

namespace ComponentModel

open Decimal (Numeral)

namespace Analysis

/-- What is found by name in a component is one of its declarations. -/
theorem Index.mem_variablesOf {index : Index} {component declaration : Nat} {name : String}
    (found : index.lookup? component name = some declaration) :
    declaration ∈ index.variablesOf component := by
  simp only [Index.lookup?, Option.bind_eq_bind, Option.bind_eq_some_iff, Option.pure_def,
    Option.some.injEq] at found
  obtain ⟨declaring, foundComponent, offset, foundOffset, place, foundPlace, rfl⟩ := found
  have inside := (List.findIdx?_eq_some_iff_getElem.mp foundPlace).1
  simp [Index.variablesOf, foundOffset, foundComponent, inside]

namespace Stage

variable {model : Model} {record place number : Nat} {found : AnalysedVariable}

/-! ## The declaration that is reported for a state -/

section

variable (valid : (analyse model).type.isValid)
  (entry : (layout model).byRecord.lookup record = some found) (isState : found.type = .state)

include entry isState

/-- What is reported for a state is chosen by the equation of its rate. -/
theorem reports : Elimination.Reports (index model) (start model) (final model).registry record :=
  (Elimination.loop_run (index model) (start model)).reports (ready model)
    (kind_start_of_state entry isState)

include valid

/-- A state whose rate no equation computes is reported by the declaration with its initial
value. -/
theorem declared_of_uncomputed (open_ : ∀ place, ¬(analyse model).ComputesAt place found) :
    ((final model).registry.get record).declaration =
      ((final model).registry.get record).initialDeclaration := by
  have unnamed : ((final model).registry.get record).equation = none := by
    rw [← Option.not_isSome_iff_eq_none, ← computesAt_iff valid entry]
    exact fun ⟨place, computed⟩ => open_ place computed
  rw [initialDeclaration_final]
  exact (reports entry isState).kept unnamed

/-- A state whose rate an equation computes is reported by its first declaration in the component
of that equation. -/
theorem declared_of_computesAt (computed : (analyse model).ComputesAt place found) :
    ∃ number source, (reported model)[place]? = some number ∧
      (built model)[number]? = some source ∧
      ((index model).variablesOf source.component).find? (fun declaration =>
          (index model).equivalent declaration
            ((final model).registry.get record).initialDeclaration) =
        some ((final model).registry.get record).declaration := by
  obtain ⟨result, reported, rfl⟩ := computed
  obtain ⟨number, _, source, _, item, reportedAt⟩ := exists_reportedAt valid reported
  obtain rfl := (cell_eq_iff reportedAt.entry entry).mp rfl
  have known := kind_start_of_state entry isState
  obtain ⟨source', foundSource, chosen⟩ := (reports entry isState).moved number
    reportedAt.ordered.named
  obtain rfl := Option.some.inj
    ((start_getElem?.mpr reportedAt.ordered.foundSource).symm.trans foundSource)
  refine ⟨number, source, reportedAt.listed, reportedAt.ordered.foundSource, ?_⟩
  -- The equation asks for the rate by one of its own declarations, so there is one to choose.
  obtain ⟨own, listed, same⟩ : ∃ own ∈ (index model).variablesOf source.component,
      (index model).equivalent own
        ((final model).registry.get item.number).initialDeclaration := by
    have asked := reportedAt.ordered.asked
    cases item with
    | value record => exact absurd (known.symm.trans reportedAt.ordered.open_) (by simp)
    | rate record =>
        obtain ⟨own, mentioned, recorded⟩ := (rate_mem_items reportedAt.membership).mp asked
        obtain ⟨name, lookup⟩ := (Gathered.sound_ofIndex (index model)).declared source
          reportedAt.membership _ mentioned
        refine ⟨own, Index.mem_variablesOf lookup, Index.equivalent_iff.mpr ?_⟩
        rw [Item.number_rate, (belongs (Registry.lt_of_find? recorded)).initial,
          Registry.representative_of_find? recorded]
  have isSome := List.find?_isSome (p := fun declaration => (index model).equivalent declaration
    ((final model).registry.get item.number).initialDeclaration) |>.mpr ⟨own, listed, same⟩
  obtain ⟨first, isFirst⟩ := Option.isSome_iff_exists.mp isSome
  rw [chosen, isFirst, OrderedEquation.reportedFor, ← initialDeclaration_final, isFirst,
    Option.getD_some]

end

end Stage

end Analysis

/-! ## What is stored in the slot of a state -/

namespace Analysis.Stage

open Code (Profile Slot Statement)
open Code.Program (AssignedOnce initialisation)

variable {K : Type*} [Field K] {model : Model} {place : Nat} {found : AnalysedVariable}
  {written : String}

/-- When states and constants are initialised, the number that a state starts with is stored once
in its slot, and nothing else is. -/
theorem assignedOnce_initialisation (valid : (analyse model).type.isValid)
    (kept : (analyse model).states[place]? = some found)
    (given : found.initial.initialValue.bind InitialValue.literal = some written) :
    AssignedOnce (analyse model) (.state place) (.literal found written)
      (initialisation (analyse model)) := by
  obtain ⟨type, rfl⟩ := statesInPlace valid place found kept
  refine assignedOnce_of_storesInitial valid ?_ (by rw [Code.Program.valueSlot?, type]; rfl)
    (.literal given)
  exact List.mem_append_left _ (List.mem_of_getElem? kept)

/-- The number that a state starts with is stored as it is written, as a double of the same exact
value, once and by nothing else. Read in the units of the declaration that is reported for the
state it is the initial value exactly if it is zero or these units have the magnitude of those of
the declaration that carries it. This is so if no equation computes the rate of the state, as both
declarations are the same then; if an equation does, the first declaration of the state in the
component of that equation is reported, whatever its units are. -/
theorem state_stored_as_written [CharZero K] (model : Model) (magnitude : String → K)
    (valid : (analyse model).type.isValid) (kept : (analyse model).states[place]? = some found)
    (given : found.initial.initialValue.bind InitialValue.literal = some written) :
    AssignedOnce (analyse model) (.state place) (.literal found written)
      (initialisation (analyse model)) ∧
    (∀ profile : Profile,
      profile.procedure .implementationInitializeStatesAndConstantsMethod
          (Code.Program.text (analyse model) profile (initialisation (analyse model))) ∈
        profile.implementationSections (analyse model) ∧
      (Statement.literal found written).text (analyse model) profile =
        profile.line (Slot.text profile (.state place) ++ profile.text .assignment ++
          Code.doubleText written)) ∧
    (∀ numeral, Numeral.ofChars? written.toList = some numeral →
      ∃ double, Numeral.ofChars? (Code.doubleText written).toList = some double ∧
        double.value K = numeral.value K ∧
        (double.value K * magnitude found.declared.units =
            numeral.value K * magnitude found.initial.units ↔
          numeral.value K = 0 ∨ magnitude found.declared.units = magnitude found.initial.units)) ∧
    ∃ initial declared,
      (index model).declarations[initial]? = some found.initial ∧
      (index model).declarations[declared]? = some found.declared ∧
      (index model).equivalent declared initial ∧
      (analyse model).factor magnitude initial =
        magnitude found.declared.units / magnitude found.initial.units ∧
      ((∀ computing, ¬(analyse model).ComputesAt computing found) → declared = initial) ∧
      ∀ computing, (analyse model).ComputesAt computing found → ∃ number source,
        (reported model)[computing]? = some number ∧ (built model)[number]? = some source ∧
        ((index model).variablesOf source.component).find? (fun declaration =>
          (index model).equivalent declaration initial) = some declared := by
  obtain ⟨isState, rfl⟩ := statesInPlace valid place found kept
  have occupied : (analyse model).occupant? (.state found.place) = some found := kept
  obtain ⟨-, record, known, entry⟩ := exists_entry_of_occupant valid occupied
  have initial := (isEntry entry).initial
  have declared := (isEntry entry).declared
  refine ⟨assignedOnce_initialisation valid kept given,
    fun profile => ⟨Code.Program.procedure_mem_sections (analyse model) profile, ?_⟩, ?_, _, _,
    initial ▸ getElem?_declarations (initialDeclaration_lt known),
    declared ▸ getElem?_declarations (declaration_lt known), ?_, ?_,
    declared_of_uncomputed valid entry isState,
    fun _ computed => declared_of_computesAt valid entry isState computed⟩
  · rw [Statement.text, Code.Profile.assignmentLine, isState]
    rfl
  · intro numeral read
    obtain ⟨double, readDouble, same⟩ := Decimal.exists_double K read
    exact ⟨double, readDouble, same, by rw [same, mul_eq_mul_left_iff, or_comm]⟩
  · rw [Index.equivalent_iff, (belongs known).declared, (belongs known).initial]
  · have recorded : (final model).registry.find? (index model)
        ((final model).registry.get record).initialDeclaration = some record :=
      (classified model).find?_eq_some known (belongs known).initial
    rw [factor_eq valid (initialDeclaration_lt known) recorded, initial, declared]

/-! ## A deposit on scales -/

/-- A sample of five hundred grams that grows on scales which count in kilograms. -/
def deposit : Model where
  schema := "1.0"
  name := "deposit"
  units := []
  components :=
    [{ name := "sample"
       declarations := [⟨"x", "gram", some (.number 500), some .public⟩]
       math := none
       components := []
       source := none },
     { name := "scales"
       declarations :=
        [⟨"t", "second", none, none⟩, ⟨"x", "kilogram", none, some .public⟩]
       math := some ("<math><apply><eq/><apply><diff/><bvar><ci>t</ci></bvar><ci>x</ci></apply>" ++
        "<cn>2</cn></apply></math>")
       components := []
       source := none }]
  connections := [⟨"sample", "scales", [⟨"x", "x"⟩]⟩]

theorem validate_deposit : deposit.validate false = .ok () := by
  decide +kernel

theorem declarations_deposit : (index deposit).declarations =
    [⟨"sample", "x", "gram", some (.number 500)⟩, ⟨"scales", "t", "second", none⟩,
     ⟨"scales", "x", "kilogram", none⟩] := by
  cbv

theorem classes_deposit : (index deposit).classes = [0, 1, 0] := by
  cbv

theorem gathered_deposit : Gathered.ofIndex (index deposit) =
    ⟨[⟨0, 0, 0, .constant, none, none⟩, ⟨1, 1, 1, .unknown, none, none⟩],
      [.new (.apply .assignment (.apply .diff (.apply .bvar (.reference 1) .absent) (.reference 2))
        (.number "2")) 1 [] [0]], []⟩ := by
  cbv

theorem derivatives_deposit : derivatives deposit =
    ⟨⟨[⟨0, 0, 0, .state, none, none⟩, ⟨1, 1, 1, .integrationVariable, none, none⟩],
      (Gathered.ofIndex (index deposit)).equations, []⟩, some 1⟩ := by
  rw [derivatives, gathered_deposit]
  cbv

theorem registry_deposit : (final deposit).registry =
    [⟨0, 0, 2, .state, some 0, some 0⟩, ⟨1, 1, 1, .integrationVariable, none, none⟩] := by
  have constants : ∀ record ∈ (derivatives deposit).gathered.registry,
      record.kind ≠ .constant := by
    rw [derivatives_deposit]
    decide
  rw [final, start, startOfElimination_of_no_constants _ constants, derivatives_deposit,
    gathered_deposit]
  cbv

theorem type_deposit : (analyse deposit).type = .ode := by
  have gathered : (Gathered.ofIndex (index deposit)).issues = [] := by rw [gathered_deposit]
  have derived : (derivatives deposit).gathered.issues = [] := by rw [derivatives_deposit]
  rw [type_analyse gathered derived, registry_deposit, derivatives_deposit]
  rfl

theorem valid_deposit : (analyse deposit).type.isValid := by
  rw [type_deposit]
  rfl

theorem states_deposit : (analyse deposit).states[0]? =
    some ⟨⟨"sample", "x", "gram", some (.number 500)⟩, ⟨"scales", "x", "kilogram", none⟩,
      .state, 0⟩ := by
  change (analyse deposit).occupant? (.state 0) = _
  rw [occupant?_analyse valid_deposit, layout, registry_deposit]
  cbv

theorem literal_deposit : (some (InitialValue.number 500)).bind InitialValue.literal =
    some "500" := by
  rfl

theorem find?_deposit {declaration : Nat} (inside : declaration < 3) :
    (final deposit).registry.find? (index deposit) declaration = [0, 1, 0][declaration]? := by
  rw [registry_deposit, Registry.find?, Index.classOf, classes_deposit]
  interval_cases declaration <;> rfl

/-- Only the sample is counted in other units than those in which it is kept. -/
theorem factor_deposit {declaration : Nat} (inside : declaration < 3) :
    (analyse deposit).factor masses declaration = if declaration = 0 then 1000 else 1 := by
  have recorded := find?_deposit inside
  have declared : declaration < (index deposit).declarations.length := by
    rw [declarations_deposit]
    exact inside
  interval_cases declaration
  all_goals
    rw [factor_eq valid_deposit declared recorded, Index.declaration, Index.declaration,
      declarations_deposit, registry_deposit]
  case «0» => exact masses_gram
  all_goals exact div_self (masses_ne_zero _)

/-- The factor of the sample. -/
theorem rule_deposit : rule deposit 0 = some ⟨"1000", "0.001"⟩ := by
  have units : (Units.Registry.ofDefinitions deposit.units).toOption = some ⟨[]⟩ := rfl
  rw [rule_of_ne (find?_deposit (by decide)) units]
  all_goals rw [Index.declaration, Index.declaration, declarations_deposit, registry_deposit]
  · exact writtenFactor_gram
  · decide

/-- Nothing else has a factor. -/
theorem rule_deposit_eq_none {declaration : Nat} (inside : declaration < 3)
    (other : declaration ≠ 0) : rule deposit declaration = none := by
  have recorded := find?_deposit inside
  interval_cases declaration
  case «0» => exact absurd rfl other
  all_goals
    refine rule_eq_none recorded ?_
    rw [Index.declaration, Index.declaration, declarations_deposit, registry_deposit]
    rfl

theorem isExact_deposit : IsExact deposit masses := by
  have three : (index deposit).declarations.length = 3 := by rw [declarations_deposit]; rfl
  exact isExact_of_only masses_ne_zero (fun declaration inside => factor_deposit (three ▸ inside))
    rule_deposit literalValue_gram fun declaration inside => rule_deposit_eq_none (three ▸ inside)

/-- The sample of five hundred grams starts as one of five hundred kilograms. -/
theorem deposit_starts_in_kilograms :
    deposit.validate false = .ok () ∧ (analyse deposit).type = .ode ∧ IsExact deposit masses ∧
      ∃ found numeral double, (analyse deposit).states[0]? = some found ∧
        found.initial.initialValue.bind InitialValue.literal = some "500" ∧
        found.initial.units = "gram" ∧ found.declared.units = "kilogram" ∧
        AssignedOnce (analyse deposit) (.state 0) (.literal found "500")
          (initialisation (analyse deposit)) ∧
        Numeral.ofChars? "500".toList = some numeral ∧
        Numeral.ofChars? (Code.doubleText "500").toList = some double ∧
        double.value ℚ * masses found.declared.units ≠
          numeral.value ℚ * masses found.initial.units := by
  refine ⟨validate_deposit, type_deposit, isExact_deposit, _, ⟨false, [5, 0, 0], [], 0⟩,
    ⟨false, [5, 0, 0], [0], 0⟩, states_deposit, literal_deposit, rfl, rfl,
    assignedOnce_initialisation valid_deposit states_deposit literal_deposit, ?_⟩
  decide +kernel

/-- The mass on the scales starts with the number that it is given. -/
theorem weighed_starts_as_given :
    (analyse weighed).type.isValid ∧ ∃ double,
      Numeral.ofChars? (Code.doubleText "1").toList = some double ∧
        double.value ℚ * masses "kilogram" = 1 * masses "kilogram" := by
  have kept : (analyse weighed).states[0]? =
      some ⟨⟨"scales", "x", "kilogram", some (.number 1)⟩,
        ⟨"scales", "x", "kilogram", some (.number 1)⟩, .state, 0⟩ := by
    change (analyse weighed).occupant? (.state 0) = _
    rw [occupant?_analyse valid_weighed, layout, registry_weighed]
    cbv
  have given : (some (InitialValue.number 1)).bind InitialValue.literal = some "1" := by
    decide +kernel
  have read : Numeral.ofChars? "1".toList = some ⟨false, [1], [], 0⟩ := by decide +kernel
  have value : (⟨false, [1], [], 0⟩ : Numeral).value ℚ = 1 := by decide +kernel
  obtain ⟨-, -, stored, -⟩ := state_stored_as_written weighed masses valid_weighed kept given
  obtain ⟨double, readDouble, -, same⟩ := stored _ read
  rw [value] at same
  exact ⟨valid_weighed, double, readDouble, same.mpr (Or.inr rfl)⟩

end Analysis.Stage

end ComponentModel
