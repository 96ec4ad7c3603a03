import ComponentModel.Code.Generation
import ComponentModel.Proofs.Numerals
import ComponentModel.Proofs.Origins
import Mathlib

/-!
# Cells of variables

An analysed model keeps each of its variables in one cell: as the variable of integration, in the
array of states or in the array of other variables. The cells of a model that can be solved are
its classes of declarations. What is rendered for a declaration is the cell of its class.
-/

namespace ComponentModel.Analysis

/-- Where a variable is kept. -/
inductive Cell where
  | integration
  | state (place : Nat)
  | other (place : Nat)
  deriving Repr, DecidableEq

/-- The cell of a type and a place. -/
def Cell.of : VariableType → Nat → Cell
  | .integrationVariable, _ => .integration
  | .state, place => .state place
  | .constant, place | .computedConstant, place | .algebraic, place => .other place

/-- The cell that a variable names. -/
def AnalysedVariable.cell (found : AnalysedVariable) : Cell :=
  .of found.type found.place

/-- Types in the order in which variables are listed. -/
def VariableType.rank : VariableType → Nat
  | integrationVariable => 0
  | state => 1
  | constant => 2
  | computedConstant => 3
  | algebraic => 4

/-- Types are ordered as the kinds that they come from. -/
theorem VariableType.rank_le {one other : Kind} {typeOne typeOther : VariableType}
    (first : ofKind? one = some typeOne) (second : ofKind? other = some typeOther)
    (le : one.rank ≤ other.rank) : typeOne.rank ≤ typeOther.rank := by
  cases one <;> cases first <;> cases other <;> cases second <;>
    first | decide | exact absurd le (by decide)

namespace VariableLayout

/-- What is laid out in a cell. -/
def occupant? (layout : VariableLayout) : Cell → Option AnalysedVariable
  | .integration => layout.integration
  | .state place => layout.states[place]?
  | .other place => layout.otherVariables[place]?

/-- What stands in the cells of a layout. -/
structure Filled (registry : Registry) (numbers : List Nat) (layout : VariableLayout) : Prop where
  /-- A variable names the cell that it stands in, and is that of a record. -/
  entry : ∀ cell found, layout.occupant? cell = some found →
    found.cell = cell ∧ ∃ number ∈ numbers, layout.byRecord.lookup number = some found
  /-- What has a record stands in a cell. -/
  occupied : ∀ number found, layout.byRecord.lookup number = some found →
    number ∈ numbers ∧ (layout.occupant? found.cell).isSome
  /-- The other variables have the types of their records, in order. -/
  types : layout.otherVariables.map AnalysedVariable.type =
    (numbers.filterMap fun number => VariableType.ofKind? (registry.get number).kind).filter
      fun type => 2 ≤ type.rank

variable {index : Index} {registry : Registry} {numbers : List Nat} {layout : VariableLayout}

theorem filled_nil : Filled registry [] ⟨none, [], [], []⟩ where
  entry := by
    intro cell found equal
    cases cell <;> simp [occupant?] at equal
  occupied := by simp
  types := rfl

/-- Laying out a record with a role fills one cell and leaves the others as they are. -/
theorem occupant?_add (index : Index) (layout : VariableLayout) {number : Nat} {type : VariableType}
    (role : VariableType.ofKind? (registry.get number).kind = some type) :
    ∃ added, added.type = type ∧
      (add index registry layout number).byRecord = (number, added) :: layout.byRecord ∧
      (∀ cell, (add index registry layout number).occupant? cell =
        if cell = added.cell then some added else layout.occupant? cell) ∧
      (add index registry layout number).otherVariables.map AnalysedVariable.type =
        layout.otherVariables.map AnalysedVariable.type ++
          if 2 ≤ type.rank then [type] else [] := by
  cases type with
  | integrationVariable =>
      simp only [add, role]
      refine ⟨_, rfl, rfl, ?_, by simp [VariableType.rank]⟩
      intro cell
      cases cell <;> simp [occupant?, AnalysedVariable.cell, Cell.of]
  | state =>
      simp only [add, role]
      refine ⟨_, rfl, rfl, ?_, by simp [VariableType.rank]⟩
      intro cell
      cases cell with
      | state place =>
          simp only [occupant?, AnalysedVariable.cell, Cell.of, Cell.state.injEq]
          rw [List.getElem?_append]
          grind
      | integration => simp [occupant?, AnalysedVariable.cell, Cell.of]
      | other place => simp [occupant?, AnalysedVariable.cell, Cell.of]
  | constant | computedConstant | algebraic =>
      simp only [add, role]
      refine ⟨_, rfl, rfl, ?_, by simp [VariableType.rank]⟩
      intro cell
      cases cell with
      | other place =>
          simp only [occupant?, AnalysedVariable.cell, Cell.of, Cell.other.injEq]
          rw [List.getElem?_append]
          grind
      | integration => simp [occupant?, AnalysedVariable.cell, Cell.of]
      | state place => simp [occupant?, AnalysedVariable.cell, Cell.of]

/-- Laying out one more record. -/
theorem Filled.add (filled : Filled registry numbers layout) {number : Nat}
    (fresh : number ∉ numbers) :
    Filled registry (numbers ++ [number]) (add index registry layout number) := by
  cases role : VariableType.ofKind? (registry.get number).kind with
  | none =>
      rw [add_of_none role]
      refine ⟨?_, ?_, by simp [filled.types, role]⟩
      · intro cell found equal
        obtain ⟨same, other, membership, lookup⟩ := filled.entry cell found equal
        exact ⟨same, other, List.mem_append_left _ membership, lookup⟩
      · intro other found equal
        obtain ⟨membership, isSome⟩ := filled.occupied other found equal
        exact ⟨List.mem_append_left _ membership, isSome⟩
  | some type =>
      obtain ⟨added, isType, byRecord, entries, types⟩ := occupant?_add index layout role
      have lookup_self : (VariableLayout.add index registry layout number).byRecord.lookup number =
          some added := by
        rw [byRecord, List.lookup_cons_self]
      refine ⟨?_, ?_, ?_⟩
      · intro cell found equal
        rw [entries] at equal
        split at equal
        case isTrue same =>
          obtain rfl := Option.some.inj equal
          exact ⟨same.symm, number, by simp, lookup_self⟩
        case isFalse =>
          obtain ⟨same, other, membership, lookup⟩ := filled.entry cell found equal
          have different : other ≠ number := fun equal => fresh (equal ▸ membership)
          refine ⟨same, other, List.mem_append_left _ membership, ?_⟩
          rw [lookup_add_of_ne index layout different, lookup]
      · intro other found equal
        rw [entries]
        by_cases same : other = number
        · subst same
          obtain rfl := Option.some.inj (lookup_self.symm.trans equal)
          simp
        · rw [lookup_add_of_ne index layout same] at equal
          obtain ⟨membership, isSome⟩ := filled.occupied other found equal
          refine ⟨List.mem_append_left _ membership, ?_⟩
          split
          · rfl
          · exact isSome
      · rw [types, filled.types]
        simp [role, List.filter_cons]

theorem filled_ofRegistry (index : Index) (registry : Registry) :
    Filled registry (order registry) (ofRegistry index registry) :=
  ofRegistry_induction filled_nil fun _ _ _ fresh filled => filled.add fresh

/-- The other variables are listed by their types. -/
theorem pairwise_otherVariables (index : Index) (registry : Registry) :
    (ofRegistry index registry).otherVariables.Pairwise fun one other =>
      one.type.rank ≤ other.type.rank := by
  have sorted : ((order registry).filterMap fun number =>
      VariableType.ofKind? (registry.get number).kind).Pairwise fun one other =>
        one.rank ≤ other.rank := by
    refine List.Pairwise.filterMap _ ?_ (pairwise_order registry)
    intro one other laidOut typeOne first typeOther second
    refine VariableType.rank_le first second ?_
    rcases layoutOrder_iff.mp laidOut with lower | ⟨same, -⟩
    · exact Nat.le_of_lt lower
    · exact Nat.le_of_eq (congrArg Kind.rank same)
  rw [← List.pairwise_map (f := AnalysedVariable.type)
    (R := fun one other => one.rank ≤ other.rank), (filled_ofRegistry index registry).types]
  exact sorted.filter _

end VariableLayout

/-- Variables that are listed by their types: constants, computed constants, algebraic variables. -/
theorem exists_split_of_pairwise {listed : List AnalysedVariable}
    (sorted : listed.Pairwise fun one other => one.type.rank ≤ other.type.rank)
    (others : ∀ found ∈ listed, 2 ≤ found.type.rank) :
    ∃ constants computed algebraic, listed = constants ++ computed ++ algebraic ∧
      (∀ found ∈ constants, found.type = .constant) ∧
      (∀ found ∈ computed, found.type = .computedConstant) ∧
      ∀ found ∈ algebraic, found.type = .algebraic := by
  induction listed with
  | nil => exact ⟨[], [], [], rfl, by simp, by simp, by simp⟩
  | cons head rest ih =>
      obtain ⟨first, sortedRest⟩ := List.pairwise_cons.mp sorted
      obtain ⟨constants, computed, algebraic, rfl, areConstants, areComputed, areAlgebraic⟩ :=
        ih sortedRest fun found later => others found (List.mem_cons_of_mem head later)
      have lowest := others head List.mem_cons_self
      -- Nothing of an earlier type stands behind the head.
      have none_of_lower {found : AnalysedVariable} (later : found ∈ constants ++ computed)
          (lower : found.type.rank < head.type.rank) : False := by
        have le := first found (List.mem_append_left _ later)
        omega
      cases type : head.type with
      | integrationVariable => simp [type, VariableType.rank] at lowest
      | state => simp [type, VariableType.rank] at lowest
      | constant =>
          exact ⟨head :: constants, computed, algebraic, rfl, by simpa [type] using areConstants,
            areComputed, areAlgebraic⟩
      | computedConstant =>
          have noConstants : constants = [] := by
            refine List.eq_nil_iff_forall_not_mem.mpr fun found membership => ?_
            refine none_of_lower (List.mem_append_left _ membership) ?_
            rw [areConstants found membership, type]
            decide
          subst noConstants
          exact ⟨[], head :: computed, algebraic, rfl, by simp, by simpa [type] using areComputed,
            areAlgebraic⟩
      | algebraic =>
          have noConstants : constants = [] := by
            refine List.eq_nil_iff_forall_not_mem.mpr fun found membership => ?_
            refine none_of_lower (List.mem_append_left _ membership) ?_
            rw [areConstants found membership, type]
            decide
          have noComputed : computed = [] := by
            refine List.eq_nil_iff_forall_not_mem.mpr fun found membership => ?_
            refine none_of_lower (List.mem_append_right _ membership) ?_
            rw [areComputed found membership, type]
            decide
          subst noConstants noComputed
          exact ⟨[], [], head :: algebraic, rfl, by simp, by simp,
            by simpa [type] using areAlgebraic⟩

/-! ## Cells of analysed models -/

namespace AnalysedModel

/-- What is kept in a cell. -/
def occupant? (analysed : AnalysedModel) : Cell → Option AnalysedVariable
  | .integration => analysed.integration
  | .state place => analysed.states[place]?
  | .other place => analysed.otherVariables[place]?

/-- A variable stands for the class of a declaration: the declaration is bound to the cell of the
variable, the variable is kept there, and both declarations that it names are of the class. -/
structure StandsFor (analysed : AnalysedModel) (index : Index) (declaration : Nat)
    (found : AnalysedVariable) : Prop where
  inside : declaration < index.declarations.length
  binding : analysed.binding? declaration = some (found.type, found.place)
  entry : analysed.occupant? found.cell = some found
  initial : ∃ other, index.equivalent other declaration ∧
    index.declarations[other]? = some found.initial
  declared : ∃ other, index.equivalent other declaration ∧
    index.declarations[other]? = some found.declared

end AnalysedModel

namespace Stage

open Code (Profile)

variable {model : Model} {one other record declaration : Nat}
  {found foundOne foundOther : AnalysedVariable}

theorem filled (model : Model) : VariableLayout.Filled (final model).registry
    (VariableLayout.order (final model).registry) (layout model) :=
  VariableLayout.filled_ofRegistry (index model) (final model).registry

theorem occupant?_analyse (valid : (analyse model).type.isValid) (cell : Cell) :
    (analyse model).occupant? cell = (layout model).occupant? cell := by
  obtain ⟨-, -, issues, equal⟩ := analyse_eq valid
  rw [equal]
  cases cell <;> rfl

theorem otherVariables_analyse (valid : (analyse model).type.isValid) :
    (analyse model).otherVariables = (layout model).otherVariables := by
  obtain ⟨-, -, issues, equal⟩ := analyse_eq valid
  rw [equal]
  rfl

/-- Only one record is that of the variable of integration. -/
theorem record_eq_of_integration
    (entry : (layout model).byRecord.lookup one = some foundOne)
    (entryOther : (layout model).byRecord.lookup other = some foundOther)
    (isIntegration : foundOne.type = .integrationVariable)
    (isIntegrationOther : foundOther.type = .integrationVariable) : one = other := by
  obtain ⟨first, integration, recorded⟩ := exists_first entry isIntegration
  obtain ⟨first', integration', recordedOther⟩ := exists_first entryOther isIntegrationOther
  obtain rfl := Option.some.inj (integration.symm.trans integration')
  exact Option.some.inj (recorded.symm.trans recordedOther)

/-- The variable of a record stands in its cell. -/
theorem occupant?_cell (entry : (layout model).byRecord.lookup record = some found) :
    (layout model).occupant? found.cell = some found := by
  by_cases isIntegration : found.type = .integrationVariable
  · obtain ⟨-, isSome⟩ := (filled model).occupied record found entry
    obtain ⟨kept, equal⟩ := Option.isSome_iff_exists.mp isSome
    obtain ⟨same, other, -, entryOther⟩ := (filled model).entry _ kept equal
    have isIntegrationKept : kept.type = .integrationVariable := by
      rw [AnalysedVariable.cell, AnalysedVariable.cell, isIntegration] at same
      cases type : kept.type <;> simp_all [Cell.of]
    obtain rfl := record_eq_of_integration entry entryOther isIntegration isIntegrationKept
    rw [equal, entryOther.symm.trans entry]
  · have placed := (isEntry entry).placed isIntegration
    rw [AnalysedVariable.cell]
    cases type : found.type <;> rw [type] at placed
    case integrationVariable => exact absurd type isIntegration
    all_goals exact placed

/-- Different records have different cells. -/
theorem cell_eq_iff (entry : (layout model).byRecord.lookup one = some foundOne)
    (entryOther : (layout model).byRecord.lookup other = some foundOther) :
    foundOne.cell = foundOther.cell ↔ one = other := by
  constructor
  · intro same
    obtain rfl := Option.some.inj
      ((occupant?_cell entry).symm.trans ((congrArg _ same).trans (occupant?_cell entryOther)))
    by_cases isIntegration : foundOne.type = .integrationVariable
    · exact record_eq_of_integration entry entryOther isIntegration isIntegration
    · exact record_eq entry entryOther isIntegration rfl
  · rintro rfl
    rw [Option.some.inj (entry.symm.trans entryOther)]

/-- The variable of a record is kept in its cell. -/
theorem occupant?_of_entry (valid : (analyse model).type.isValid)
    (entry : (layout model).byRecord.lookup record = some found) :
    (analyse model).occupant? found.cell = some found :=
  (occupant?_analyse valid found.cell).trans (occupant?_cell entry)

/-- What is kept in a cell names the cell, and is the variable of a record. -/
theorem exists_entry_of_occupant (valid : (analyse model).type.isValid) {cell : Cell}
    (kept : (analyse model).occupant? cell = some found) :
    found.cell = cell ∧ ∃ record < (final model).registry.length,
      (layout model).byRecord.lookup record = some found := by
  rw [occupant?_analyse valid] at kept
  obtain ⟨same, record, listed, entry⟩ := (filled model).entry cell found kept
  exact ⟨same, record, VariableLayout.mem_order.mp listed, entry⟩

theorem getElem?_declarations (inside : declaration < (index model).declarations.length) :
    (index model).declarations[declaration]? = some ((index model).declaration declaration) := by
  simp [Index.declaration, List.getD_eq_getElem?_getD, inside]

/-- The variable of the record of a declaration stands for the declaration's class. -/
theorem standsFor (valid : (analyse model).type.isValid)
    (inside : declaration < (index model).declarations.length)
    (recorded : (final model).registry.find? (index model) declaration = some record)
    (entry : (layout model).byRecord.lookup record = some found) :
    (analyse model).StandsFor (index model) declaration found := by
  have known := Registry.lt_of_find? recorded
  have representative := Registry.representative_of_find? recorded
  exact {
    inside
    binding := (boundTo valid inside recorded entry).binding
    entry := occupant?_of_entry valid entry
    initial := by
      refine ⟨_, ?_, (isEntry entry).initial ▸ getElem?_declarations (initialDeclaration_lt known)⟩
      rw [Index.equivalent_iff, (belongs known).initial, representative]
    declared := by
      refine ⟨_, ?_, (isEntry entry).declared ▸ getElem?_declarations (declaration_lt known)⟩
      rw [Index.equivalent_iff, (belongs known).declared, representative] }

/-- What stands for a declaration is the variable of its record. -/
theorem exists_entry_of_standsFor (valid : (analyse model).type.isValid)
    (stands : (analyse model).StandsFor (index model) declaration found) :
    ∃ record, (final model).registry.find? (index model) declaration = some record ∧
      (layout model).byRecord.lookup record = some found := by
  obtain ⟨record, recorded⟩ := exists_record stands.inside
  obtain ⟨kept, entry⟩ := exists_entry valid (Registry.lt_of_find? recorded)
  have same := (standsFor valid stands.inside recorded entry).binding.symm.trans stands.binding
  have sameCell : kept.cell = found.cell := by
    obtain ⟨type, place⟩ := Prod.mk.inj (Option.some.inj same)
    rw [AnalysedVariable.cell, AnalysedVariable.cell, type, place]
  have kept_eq := occupant?_of_entry valid entry
  rw [sameCell, stands.entry] at kept_eq
  exact ⟨record, recorded, (Option.some.inj kept_eq) ▸ entry⟩

end Stage

end ComponentModel.Analysis

/-! ## Rendering -/

namespace ComponentModel.Code

open Analysis (Cell VariableType)

namespace Profile

/-- The text of what is kept in a cell, or of its rate. -/
def cellText (profile : Profile) (rate : Bool) : Cell → String
  | .integration => profile.variableText rate .integrationVariable 0
  | .state place => profile.variableText rate .state place
  | .other place => profile.variableText rate .constant place

theorem variableText_eq_cellText (profile : Profile) (rate : Bool) (type : VariableType)
    (place : Nat) :
    profile.variableText rate type place = profile.cellText rate (.of type place) := by
  cases type <;> rfl

/-- The characters of an element of an array. -/
theorem toList_element (array : String) (place : Nat) :
    (array ++ "[" ++ countText place ++ "]").toList =
      array.toList ++ '[' :: ((countText place).toList ++ [']']) := by
  simp

/-- An element of an array tells its place. -/
theorem place_eq_of_element {array : String} {one other : Nat}
    (same : array ++ "[" ++ countText one ++ "]" = array ++ "[" ++ countText other ++ "]") :
    one = other := by
  have spelled := congrArg String.toList same
  rw [toList_element, toList_element, List.append_cancel_left_eq, List.cons.injEq] at spelled
  exact Decimal.digitText_injective (String.toList_inj.mp (List.append_cancel_right spelled.2))

/-- The default profiles write different cells differently. -/
theorem cellText_injective (kind : ProfileKind) (rate : Bool) :
    Function.Injective ((Profile.ofKind kind).cellText rate) := by
  have texts : (Profile.ofKind kind).cellText rate = fun
      | .integration => "voi"
      | .state place => (if rate then "rates" else "states") ++ "[" ++ countText place ++ "]"
      | .other place => "variables" ++ "[" ++ countText place ++ "]" := by
    funext cell
    cases kind <;> cases rate <;> cases cell <;> rfl
  rw [texts]
  intro one other same
  cases one <;> cases other
  case integration.integration => rfl
  case state.state => exact congrArg Cell.state (place_eq_of_element same)
  case other.other => exact congrArg Cell.other (place_eq_of_element same)
  all_goals
    have spelled := congrArg String.toList same
    simp only [toList_element] at spelled
    cases rate <;> simp at spelled

end Profile

end ComponentModel.Code

/-! ## Cells are classes -/

namespace ComponentModel.Analysis.Stage

open Code (Profile)

variable {model : Model}

/-- What stands in a cell stands for a class, and names the cell. -/
theorem exists_standsFor (valid : (analyse model).type.isValid) {cell : Cell}
    {found : AnalysedVariable} (kept : (analyse model).occupant? cell = some found) :
    found.cell = cell ∧
      ∃ declaration, (analyse model).StandsFor (index model) declaration found := by
  obtain ⟨same, record, inside, entry⟩ := exists_entry_of_occupant valid kept
  exact ⟨same, _, standsFor valid (declaration_lt inside) (find?_declaration inside) entry⟩

/-- Two variables have the same cell exactly if they stand for the same class. -/
theorem cell_eq_iff_equivalent (valid : (analyse model).type.isValid) {one other : Nat}
    {foundOne foundOther : AnalysedVariable}
    (stands : (analyse model).StandsFor (index model) one foundOne)
    (standsOther : (analyse model).StandsFor (index model) other foundOther) :
    foundOne.cell = foundOther.cell ↔ (index model).equivalent one other := by
  obtain ⟨record, recorded, entry⟩ := exists_entry_of_standsFor valid stands
  obtain ⟨record', recordedOther, entryOther⟩ := exists_entry_of_standsFor valid standsOther
  rw [cell_eq_iff entry entryOther, ← find?_eq_iff stands.inside, recorded, recordedOther,
    Option.some.injEq]

/-- The variable of integration is there exactly if the model is one of differential equations. -/
theorem isSome_integration_iff (valid : (analyse model).type.isValid) :
    (analyse model).integration.isSome ↔ (analyse model).type = .ode := by
  rw [type_eq_ode_iff valid]
  constructor
  · intro isSome
    obtain ⟨found, kept⟩ := Option.isSome_iff_exists.mp isSome
    change (analyse model).occupant? .integration = some found at kept
    obtain ⟨same, record, -, entry⟩ := exists_entry_of_occupant valid kept
    refine ⟨record, (type_eq_integrationVariable_iff valid entry).mp ?_⟩
    rw [AnalysedVariable.cell] at same
    cases type : found.type <;> simp_all [Cell.of]
  · rintro ⟨record, mentioned⟩
    obtain ⟨source, inModel, declaration, -, recorded⟩ := id mentioned
    obtain ⟨found, entry⟩ := exists_entry valid (Registry.lt_of_find? recorded)
    have isIntegration := (type_eq_integrationVariable_iff valid entry).mpr mentioned
    have kept := occupant?_of_entry valid entry
    rw [AnalysedVariable.cell, isIntegration] at kept
    exact Option.isSome_of_eq_some kept

/-- Constants are listed first, then computed constants, then algebraic variables. -/
theorem exists_split_otherVariables (valid : (analyse model).type.isValid) :
    ∃ constants computed algebraic,
      (analyse model).otherVariables = constants ++ computed ++ algebraic ∧
      (∀ found ∈ constants, found.type = .constant) ∧
      (∀ found ∈ computed, found.type = .computedConstant) ∧
      ∀ found ∈ algebraic, found.type = .algebraic := by
  rw [otherVariables_analyse valid]
  refine exists_split_of_pairwise
    (VariableLayout.pairwise_otherVariables (index model) (final model).registry) ?_
  intro found membership
  have isType := List.mem_map_of_mem (f := AnalysedVariable.type) membership
  have isOther := (List.mem_filter.mp ((filled model).types ▸ isType)).2
  simpa using isOther

/-- The cells of a model that can be solved are its classes of declarations. Every class has a
variable, which stands in the cell that it names and names members of the class only; every cell
is that of a class; and classes differ exactly if their cells do. The other variables are listed
by their types, and the variable of integration is there exactly if the model is one of
differential equations. A declaration is always rendered as the cell of its class, and by the
default profiles like another one exactly if both are equivalent. -/
theorem cells_are_classes (model : Model) (valid : (analyse model).type.isValid) :
    (∀ declaration < (index model).declarations.length,
      ∃ found, (analyse model).StandsFor (index model) declaration found) ∧
    (∀ cell found, (analyse model).occupant? cell = some found →
      found.cell = cell ∧ ∃ declaration,
        (analyse model).StandsFor (index model) declaration found) ∧
    (∀ one other foundOne foundOther,
      (analyse model).StandsFor (index model) one foundOne →
      (analyse model).StandsFor (index model) other foundOther →
      (foundOne.cell = foundOther.cell ↔ (index model).equivalent one other)) ∧
    (∃ constants computed algebraic,
      (analyse model).otherVariables = constants ++ computed ++ algebraic ∧
      (∀ found ∈ constants, found.type = .constant) ∧
      (∀ found ∈ computed, found.type = .computedConstant) ∧
      ∀ found ∈ algebraic, found.type = .algebraic) ∧
    ((analyse model).integration.isSome ↔ (analyse model).type = .ode) ∧
    (∀ (profile : Profile) rate declaration found,
      (analyse model).StandsFor (index model) declaration found →
      profile.referenceText (analyse model) rate declaration =
        profile.variableText rate found.type found.place) ∧
    ∀ kind rate, ∀ one < (index model).declarations.length,
      ∀ other < (index model).declarations.length,
        ((Profile.ofKind kind).referenceText (analyse model) rate one =
            (Profile.ofKind kind).referenceText (analyse model) rate other ↔
          (index model).equivalent one other) := by
  have every : ∀ declaration < (index model).declarations.length,
      ∃ found, (analyse model).StandsFor (index model) declaration found := by
    intro declaration inside
    obtain ⟨record, recorded⟩ := exists_record inside
    obtain ⟨found, entry⟩ := exists_entry valid (Registry.lt_of_find? recorded)
    exact ⟨found, standsFor valid inside recorded entry⟩
  have rendered : ∀ (profile : Profile) rate declaration found,
      (analyse model).StandsFor (index model) declaration found →
      profile.referenceText (analyse model) rate declaration =
        profile.variableText rate found.type found.place := by
    intro profile rate declaration found stands
    rw [Profile.referenceText, stands.binding]
  refine ⟨every, fun cell found => exists_standsFor valid,
    fun one other foundOne foundOther => cell_eq_iff_equivalent valid,
    exists_split_otherVariables valid, isSome_integration_iff valid, rendered, ?_⟩
  intro kind rate one inside other insideOther
  obtain ⟨foundOne, stands⟩ := every one inside
  obtain ⟨foundOther, standsOther⟩ := every other insideOther
  rw [rendered _ _ _ _ stands, rendered _ _ _ _ standsOther, Profile.variableText_eq_cellText,
    Profile.variableText_eq_cellText, (Profile.cellText_injective kind rate).eq_iff]
  exact cell_eq_iff_equivalent valid stands standsOther

/-- A mass that grows on scales and whose rate is displayed in other units: the two components
have their time and the mass in common. -/
def weighed : Model where
  schema := "1.0"
  name := "weighed"
  units := []
  components :=
    [{ name := "scales"
       declarations :=
        [⟨"t", "second", none, none⟩, ⟨"x", "kilogram", some (.number 1), none⟩]
       math := some ("<math><apply><eq/><apply><diff/><bvar><ci>t</ci></bvar><ci>x</ci></apply>" ++
        "<cn>2</cn></apply></math>")
       components := []
       source := none },
     { name := "display"
       declarations :=
        [⟨"t", "second", none, none⟩, ⟨"x", "gram", none, none⟩, ⟨"y", "gram", none, none⟩]
       math := some ("<math><apply><eq/><ci>y</ci><apply><diff/><bvar><ci>t</ci></bvar>" ++
        "<ci>x</ci></apply></apply></math>")
       components := []
       source := none }]
  connections := [⟨"scales", "display", [⟨"t", "t"⟩, ⟨"x", "x"⟩]⟩]

theorem classes_weighed : (index weighed).classes = [0, 1, 0, 1, 4] := by
  cbv

theorem gathered_weighed : Gathered.ofIndex (index weighed) =
    ⟨[⟨0, 0, 0, .unknown, none, none⟩, ⟨1, 1, 1, .constant, none, none⟩,
      ⟨4, 4, 4, .unknown, none, none⟩],
      [.new (.apply .assignment (.apply .diff (.apply .bvar (.reference 0) .absent) (.reference 1))
        (.number "2")) 0 [] [1],
       .new (.apply .assignment (.reference 4)
        (.apply .diff (.apply .bvar (.reference 2) .absent) (.reference 3))) 1 [2] [1]], []⟩ := by
  cbv

theorem built_weighed : built weighed =
    [.new (.apply .assignment (.apply .diff (.apply .bvar (.reference 0) .absent) (.reference 1))
        (.number "2")) 0 [] [1],
     .new (.apply .assignment (.reference 4)
        (.apply .diff (.apply .bvar (.reference 2) .absent) (.reference 3))) 1 [2] [1]] := by
  rw [built, gathered_weighed]

theorem derivatives_weighed : derivatives weighed =
    ⟨⟨[⟨0, 0, 0, .integrationVariable, none, none⟩, ⟨1, 1, 1, .state, none, none⟩,
      ⟨4, 4, 4, .unknown, none, none⟩],
      (Gathered.ofIndex (index weighed)).equations, []⟩, some 0⟩ := by
  rw [derivatives, gathered_weighed]
  cbv

theorem start_weighed : start weighed =
    ⟨built weighed,
      [⟨0, 0, 0, .integrationVariable, none, none⟩, ⟨1, 1, 1, .state, none, none⟩,
        ⟨4, 4, 4, .unknown, none, none⟩], .afterConstants 0⟩ := by
  have constants : ∀ record ∈ (derivatives weighed).gathered.registry,
      record.kind ≠ .constant := by
    rw [derivatives_weighed]
    decide
  rw [start, startOfElimination_of_no_constants _ constants, derivatives_weighed, built]

theorem registry_weighed : (final weighed).registry =
    [⟨0, 0, 0, .integrationVariable, none, none⟩, ⟨1, 1, 1, .state, some 0, some 0⟩,
     ⟨4, 4, 4, .algebraic, some 0, some 1⟩] := by
  rw [final, start_weighed, built_weighed]
  cbv

theorem type_weighed : (analyse weighed).type = .ode := by
  have gathered : (Gathered.ofIndex (index weighed)).issues = [] := by rw [gathered_weighed]
  have derived : (derivatives weighed).gathered.issues = [] := by rw [derivatives_weighed]
  rw [type_analyse gathered derived, registry_weighed, derivatives_weighed]
  rfl

theorem valid_weighed : (analyse weighed).type.isValid := by
  rw [type_weighed]
  rfl

/-- The mass on the scales and the displayed mass are written alike, and differently from the
displayed rate. -/
theorem weighed_cells :
    (analyse weighed).type.isValid ∧
      (Profile.ofKind .c).referenceText (analyse weighed) false 1 =
        (Profile.ofKind .c).referenceText (analyse weighed) false 3 ∧
      (Profile.ofKind .c).referenceText (analyse weighed) false 1 ≠
        (Profile.ofKind .c).referenceText (analyse weighed) false 4 := by
  obtain ⟨-, -, -, -, -, -, written⟩ := cells_are_classes weighed valid_weighed
  have inside : ∀ declaration < 5, declaration < (index weighed).declarations.length := by
    rw [← (bounded weighed).length, classes_weighed]
    exact fun _ bound => bound
  have alike := written .c false 1 (inside 1 (by decide)) 3 (inside 3 (by decide))
  have apart := written .c false 1 (inside 1 (by decide)) 4 (inside 4 (by decide))
  rw [Index.equivalent, Index.classOf, Index.classOf, classes_weighed] at alike apart
  exact ⟨valid_weighed, alike.mpr rfl, fun same => absurd (apart.mp same) (by decide)⟩

end ComponentModel.Analysis.Stage
