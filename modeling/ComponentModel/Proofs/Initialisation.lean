import ComponentModel.Proofs.Cells
import ComponentModel.Proofs.Dataflow
import ComponentModel.Proofs.Elimination.Reporting

/-!
# What states and constants start with

A class is a state or a constant only if a declaration with an initial value was met. All of them
are kept in different elements of arrays, so the code that initialises a model stores one value in
each, as long as the variables that initial values name can be found. The equations that are
evaluated in the same procedure compute other classes: as they refer to nothing else, what they
assign to is what they compute.
-/

namespace ComponentModel

namespace Analysis

/-! ## Declarations before the elimination -/

/-- All classes are reported by the declarations with their initial values. -/
def Registry.ReportsInitial (registry : Registry) : Prop :=
  ∀ record ∈ registry, record.declaration = record.initialDeclaration

/-- Meeting a class and taking over an initial value let the class be reported by it. -/
theorem Gathered.keeps_reportsInitial (index : Index) :
    Keeps index Registry.ReportsInitial where
  resolve _ _ _ initial := by
    intro record membership
    rcases Registry.mem_resolve index membership with earlier | rfl
    · exact initial record earlier
    · rfl
  track _ _ _ _ _ initial := Registry.forall_mem_change initial fun _ _ => rfl

/-- The variable of integration is reported by another declaration only together with the initial
value of that. -/
theorem Differentiated.keeps_reportsInitial (index : Index) :
    Keeps index Registry.ReportsInitial where
  makeState _ _ initial := Registry.forall_mem_change initial fun _ same => same
  integrate _ _ _ _ initial := Registry.forall_mem_change initial fun _ _ => rfl

/-! ## Initial values of classes -/

/-- What starts with a given value has it from the declaration that the record names. -/
def Record.IsGiven (index : Index) (record : Record) : Prop :=
  record.kind = .state ∨ record.kind = .constant →
    (index.declaration record.initialDeclaration).isInitialised

theorem Gathered.keeps_isGiven (index : Index) :
    Keeps index fun registry => ∀ record ∈ registry, record.IsGiven index where
  resolve _ declaration _ given := by
    intro record membership
    rcases Registry.mem_resolve index membership with earlier | rfl
    · exact given record earlier
    · cases initialised : (index.declaration declaration).isInitialised <;>
        simp [Record.IsGiven, Record.new, Record.track, initialised]
  track _ _ _ _ initialised given := Registry.forall_mem_change given fun _ _ _ => initialised

theorem Differentiated.keeps_isGiven (index : Index) :
    Keeps index fun registry => ∀ record ∈ registry, record.IsGiven index where
  makeState _ _ given := Registry.forall_mem_change given fun record isGiven made => by
    refine isGiven ?_
    cases kind : record.kind <;> simp_all [Record.makeState, Kind.madeState]
  integrate _ _ _ _ given := Registry.forall_mem_change given fun _ _ made => by
    simp [Record.makeIntegrationVariable] at made

namespace Stage

variable {model : Model} {record place : Nat} {found : AnalysedVariable}

/-- What gathering and derivatives keep holds of the records before the elimination, if it does not
depend on places. -/
theorem get_start_of_keeps {property : Record → Prop}
    (gathered : Gathered.Keeps (index model) fun registry => ∀ record ∈ registry, property record)
    (derived : Differentiated.Keeps (index model) fun registry =>
      ∀ record ∈ registry, property record)
    (outside : property ⟨0, 0, 0, .unknown, none, none⟩)
    (unplaced : ∀ record, property record.unplaced ↔ property record) (record : Nat) :
    property ((start model).registry.get record) := by
  have holds := derived.ofGathered (gathered.ofIndex (by simp))
  have given := Prepared.get_of_mem property holds outside record
  have same := unplaced_startOfElimination (index model) (derivatives model).gathered record
  rw [← unplaced, start, same, unplaced]
  exact given

/-- Before the elimination every class is reported by the declaration with its initial value. -/
theorem declaration_start (model : Model) (record : Nat) :
    ((start model).registry.get record).declaration =
      ((start model).registry.get record).initialDeclaration := by
  have gathered : Gathered.Keeps (index model) fun registry =>
      ∀ record ∈ registry, record.declaration = record.initialDeclaration :=
    Gathered.keeps_reportsInitial (index model)
  exact get_start_of_keeps gathered (Differentiated.keeps_reportsInitial (index model)) rfl
    (fun _ => .rfl) record

theorem initialDeclaration_final (model : Model) (record : Nat) :
    ((final model).registry.get record).initialDeclaration =
      ((start model).registry.get record).declaration :=
  (Elimination.initialDeclaration_of_moves (moves model) record).trans
    (declaration_start model record).symm

theorem isGiven_start (model : Model) (record : Nat) :
    ((start model).registry.get record).IsGiven (index model) :=
  get_start_of_keeps (Gathered.keeps_isGiven (index model))
    (Differentiated.keeps_isGiven (index model)) (by simp [Record.IsGiven]) (fun _ => .rfl) record

/-- A constant was known to be one from the start. -/
theorem kind_start_of_constant (entry : (layout model).byRecord.lookup record = some found)
    (isConstant : found.type = .constant) :
    ((start model).registry.get record).kind = .constant := by
  have type := (isEntry entry).type
  rw [isConstant] at type
  have left : ((final model).registry.get record).kind = .constant := by
    cases kind : ((final model).registry.get record).kind <;> simp_all [VariableType.ofKind?]
  cases Elimination.standing_of_moves (ready model) (moves model) record with
  | untouched same => exact same.symm.trans left
  | twice given => exact given
  | value _ same => simp [left] at same
  | rate _ same => simp [left] at same

/-- States and constants start with what a declaration says. -/
theorem isSome_initialValue (entry : (layout model).byRecord.lookup record = some found)
    (given : found.type = .state ∨ found.type = .constant) : found.initial.initialValue.isSome := by
  rw [(isEntry entry).initial, initialDeclaration_final, declaration_start]
  refine isGiven_start model record (given.imp (kind_start_of_state entry) ?_)
  exact kind_start_of_constant entry

end Stage

end Analysis

/-! ## Statements that assign once -/

namespace Code.Program

open Analysis (AnalysedModel AnalysedVariable VariableType)

variable {analysed : AnalysedModel} {slot : Slot} {only : Statement} {found : AnalysedVariable}

/-- The statements that give states and constants their values. -/
def initialisation (analysed : AnalysedModel) : List Statement :=
  literals analysed ++ copies analysed ++ equations analysed (Schedule.ofModel analysed).initialise

/-- The statements are those of the first procedure of an implementation. -/
theorem procedure_mem_sections (analysed : AnalysedModel) (profile : Profile) :
    profile.procedure .implementationInitializeStatesAndConstantsMethod
        (text analysed profile (initialisation analysed)) ∈
      profile.implementationSections analysed := by
  obtain ⟨front, sections⟩ := sections_eq analysed profile
  rw [sections]
  exact List.mem_append_right _ List.mem_cons_self

/-- Only one of some statements assigns to a slot. -/
def AssignedOnce (analysed : AnalysedModel) (slot : Slot) (only : Statement)
    (statements : List Statement) : Prop :=
  ∃ before after, statements = before ++ only :: after ∧ only.target? analysed = some slot ∧
    ∀ other ∈ before ++ after, other.target? analysed ≠ some slot

/-- Statements that do not assign to a slot leave what is stored there. -/
theorem AssignedOnce.append {statements more : List Statement}
    (once : AssignedOnce analysed slot only statements)
    (apart : ∀ other ∈ more, other.target? analysed ≠ some slot) :
    AssignedOnce analysed slot only (statements ++ more) := by
  obtain ⟨before, after, rfl, assigns, others⟩ := once
  refine ⟨before, after ++ more, by simp, assigns, fun other membership => ?_⟩
  rw [← List.append_assoc, List.mem_append] at membership
  exact membership.elim (others other) (apart other)

theorem AssignedOnce.prepend {statements more : List Statement}
    (once : AssignedOnce analysed slot only statements)
    (apart : ∀ other ∈ more, other.target? analysed ≠ some slot) :
    AssignedOnce analysed slot only (more ++ statements) := by
  obtain ⟨before, after, rfl, assigns, others⟩ := once
  refine ⟨more ++ before, after, by simp, assigns, fun other membership => ?_⟩
  rw [List.append_assoc, List.mem_append] at membership
  exact membership.elim (apart other) (others other)

/-! ## Where states and constants are kept -/

/-- Variables that name the places where they stand are listed once each. -/
theorem nodup_of_place {listed : List AnalysedVariable}
    (inPlace : ∀ (place : Nat) (found : AnalysedVariable), listed[place]? = some found →
      found.place = place) : listed.Nodup := by
  rw [List.nodup_iff_getElem?_ne_getElem?]
  intro one other before inside same
  have kept := List.getElem?_eq_getElem inside
  have first := inPlace one _ (same.trans kept)
  have second := inPlace other _ kept
  omega

/-- The states of a model name the places where they stand. -/
def StatesInPlace (analysed : AnalysedModel) : Prop :=
  ∀ (place : Nat) (found : AnalysedVariable), analysed.states[place]? = some found →
    found.type = .state ∧ found.place = place

namespace StatesInPlace

theorem nodup (inPlace : StatesInPlace analysed) : analysed.states.Nodup :=
  nodup_of_place fun place found kept => (inPlace place found kept).2

end StatesInPlace

/-- Where the value of a variable is kept. -/
def valueSlot? (found : AnalysedVariable) : Option Slot :=
  Slot.of? false found.type found.place

/-- States and constants are listed once each, and kept in different elements. -/
structure KeptApart (analysed : AnalysedModel) : Prop where
  nodup : (Profile.initialised analysed).Nodup
  kept : ∀ found ∈ Profile.initialised analysed, (valueSlot? found).isSome
  apart : ∀ one ∈ Profile.initialised analysed, ∀ other ∈ Profile.initialised analysed,
    valueSlot? one = valueSlot? other → one = other

/-- Some variables are given a value each, by statements that assign to where they are kept. -/
def Gives (analysed : AnalysedModel) (image : AnalysedVariable → Option Statement) : Prop :=
  ∀ found statement, image found = some statement →
    statement.target? analysed = valueSlot? found

theorem gives_literal : Gives analysed fun found =>
    (found.initial.initialValue.bind InitialValue.literal).map (.literal found) := by
  intro found statement image
  obtain ⟨_, -, rfl⟩ := Option.map_eq_some_iff.mp image
  rfl

theorem gives_copy : Gives analysed fun found =>
    ((found.initial.initialValue.bind InitialValue.variableName).bind
      (analysed.bindingOf? found.initial.component)).map fun binding =>
        .copy found binding.1 binding.2 := by
  intro found statement image
  obtain ⟨_, -, rfl⟩ := Option.map_eq_some_iff.mp image
  rfl

namespace Gives

variable {image : AnalysedVariable → Option Statement} (gives : Gives analysed image)
  (keptApart : KeptApart analysed) (membership : found ∈ Profile.initialised analysed)
  (kept : valueSlot? found = some slot)

include gives keptApart membership kept

/-- What is given no value is not assigned to. -/
theorem target?_ne (none : image found = none) {statement : Statement}
    (listed : statement ∈ (Profile.initialised analysed).filterMap image) :
    statement.target? analysed ≠ some slot := by
  intro assigns
  obtain ⟨origin, isOrigin, stored⟩ := List.mem_filterMap.mp listed
  rw [gives _ _ stored, ← kept] at assigns
  obtain rfl := keptApart.apart origin isOrigin found membership assigns
  cases none.symm.trans stored

/-- What is given a value is assigned to once. -/
theorem assignedOnce (stored : image found = some only) :
    AssignedOnce analysed slot only ((Profile.initialised analysed).filterMap image) := by
  obtain ⟨front, back, split⟩ := List.append_of_mem membership
  have alone : found ∉ front ++ back := by
    have nodup := keptApart.nodup
    rw [split, List.nodup_middle] at nodup
    exact (List.nodup_cons.mp nodup).1
  refine ⟨_, _, by rw [split, List.filterMap_append, List.filterMap_cons_some stored],
    (gives _ _ stored).trans kept, ?_⟩
  intro other listed assigns
  rw [← List.filterMap_append] at listed
  obtain ⟨origin, isOrigin, image⟩ := List.mem_filterMap.mp listed
  rw [gives _ _ image, ← kept] at assigns
  have among : origin ∈ Profile.initialised analysed := by
    rw [split]
    exact List.mem_append.mpr ((List.mem_append.mp isOrigin).imp_right (List.mem_cons_of_mem _))
  obtain rfl := keptApart.apart origin among found membership assigns
  exact alone isOrigin

end Gives

/-! ## Statements for initial values -/

/-- A statement stores the initial value of a variable: a number, or the value of the variable that
the initial value names. -/
inductive StoresInitial (analysed : AnalysedModel) (found : AnalysedVariable) : Statement → Prop
  | literal {written : String}
      (given : found.initial.initialValue.bind InitialValue.literal = some written) :
      StoresInitial analysed found (.literal found written)
  | copy {name : String} {binding : VariableType × Nat}
      (named : found.initial.initialValue.bind InitialValue.variableName = some name)
      (bound : analysed.bindingOf? found.initial.component name = some binding) :
      StoresInitial analysed found (.copy found binding.1 binding.2)

/-- The variables that initial values name are found. -/
def NamesFound (analysed : AnalysedModel) : Prop :=
  ∀ found ∈ Profile.initialised analysed, ∀ name,
    found.initial.initialValue.bind InitialValue.variableName = some name →
      (analysed.bindingOf? found.initial.component name).isSome

/-- An initial value is a number, or names a variable. -/
theorem variableName_of_not_literal {initial : Option InitialValue} (given : initial.isSome)
    (other : initial.bind InitialValue.literal = none) :
    ∃ name, initial.bind InitialValue.variableName = some name := by
  obtain ⟨value, rfl⟩ := Option.isSome_iff_exists.mp given
  cases value with
  | number => cases other
  | text written =>
      simp only [Option.bind_some, InitialValue.literal, InitialValue.variableName] at other ⊢
      split at other
      case isTrue => cases other
      case isFalse isName => exact ⟨_, if_neg isName⟩

/-- What has an initial value gets it from a number or from a variable that is found. -/
theorem exists_storesInitial (names : NamesFound analysed)
    (membership : found ∈ Profile.initialised analysed)
    (given : found.initial.initialValue.isSome) : ∃ only, StoresInitial analysed found only := by
  cases literal : found.initial.initialValue.bind InitialValue.literal with
  | some written => exact ⟨_, .literal literal⟩
  | none =>
      obtain ⟨name, named⟩ := variableName_of_not_literal given literal
      obtain ⟨binding, bound⟩ := Option.isSome_iff_exists.mp (names found membership name named)
      exact ⟨_, .copy named bound⟩

/-- A state or constant is given its initial value once. -/
theorem StoresInitial.assignedOnce (stores : StoresInitial analysed found only)
    (keptApart : KeptApart analysed) (membership : found ∈ Profile.initialised analysed)
    (kept : valueSlot? found = some slot) :
    AssignedOnce analysed slot only (literals analysed ++ copies analysed) := by
  cases stores with
  | literal given =>
      have unnamed := variableName_of_literal (Option.isSome_of_eq_some given)
      refine (gives_literal.assignedOnce keptApart membership kept (by rw [given]; rfl)).append ?_
      exact fun other => gives_copy.target?_ne keptApart membership kept (by rw [unnamed]; rfl)
  | copy named bound =>
      have unwritten : found.initial.initialValue.bind InitialValue.literal = none := by
        by_contra written
        rw [variableName_of_literal (Option.isSome_iff_ne_none.mpr written)] at named
        cases named
      refine (gives_copy.assignedOnce keptApart membership kept ?_).prepend ?_
      · rw [named, Option.bind_some, bound]
        rfl
      · exact fun other =>
          gives_literal.target?_ne keptApart membership kept (by rw [unwritten]; rfl)

end Code.Program

/-! ## Models that can be solved -/

namespace Analysis.Stage

open Code (IsKind Profile Slot Statement)
open Code.Program (AssignedOnce KeptApart NamesFound StatesInPlace StoresInitial initialisation
  valueSlot?)

variable {model : Model} {place : Nat} {found : AnalysedVariable} {slot : Slot} {only : Statement}

theorem statesInPlace (valid : (analyse model).type.isValid) : StatesInPlace (analyse model) := by
  intro place found kept
  have kept : (analyse model).occupant? (.state place) = some found := kept
  obtain ⟨same, -⟩ := exists_entry_of_occupant valid kept
  rw [AnalysedVariable.cell] at same
  cases type : found.type <;> simp_all [Cell.of]

/-- What is kept in one element of an array, or in those for the value and the rate of a state, is
kept in one cell. -/
theorem cell_eq_of_slot {one other : AnalysedVariable} {rate rateOther : Bool}
    (kept : Slot.of? rate one.type one.place = some slot)
    (keptOther : Slot.of? rateOther other.type other.place = some slot) :
    one.cell = other.cell := by
  unfold AnalysedVariable.cell
  cases typeOne : one.type <;> cases typeOther : other.type <;> rw [typeOne] at kept <;>
    rw [typeOther] at keptOther <;> cases kept <;> cases rate <;> cases rateOther <;>
    simp_all [Slot.of?, Cell.of]

/-- States and constants are the variables of records. -/
theorem exists_entry_of_initialised (valid : (analyse model).type.isValid)
    (membership : found ∈ Profile.initialised (analyse model)) :
    (found.type = .state ∨ found.type = .constant) ∧
      ∃ record < (final model).registry.length,
        (layout model).byRecord.lookup record = some found := by
  rcases List.mem_append.mp membership with isState | isOther
  · obtain ⟨place, kept⟩ := List.mem_iff_getElem?.mp isState
    have kept : (analyse model).occupant? (.state place) = some found := kept
    obtain ⟨-, entry⟩ := exists_entry_of_occupant valid kept
    exact ⟨.inl (statesInPlace valid place found kept).1, entry⟩
  · obtain ⟨isOther, isConstant⟩ := List.mem_filter.mp isOther
    obtain ⟨place, kept⟩ := List.mem_iff_getElem?.mp isOther
    have kept : (analyse model).occupant? (.other place) = some found := kept
    obtain ⟨-, entry⟩ := exists_entry_of_occupant valid kept
    exact ⟨.inr (eq_of_beq isConstant), entry⟩

/-- A state or constant is what is kept in its element. -/
theorem eq_of_valueSlot? (valid : (analyse model).type.isValid) {record : Nat}
    {source : AnalysedVariable} (membership : found ∈ Profile.initialised (analyse model))
    (entry : (layout model).byRecord.lookup record = some source)
    (kept : valueSlot? found = some slot) (keptSource : valueSlot? source = some slot) :
    source = found := by
  obtain ⟨-, other, -, entryFound⟩ := exists_entry_of_initialised valid membership
  obtain rfl := (cell_eq_iff entry entryFound).mp (cell_eq_of_slot keptSource kept)
  exact Option.some.inj (entry.symm.trans entryFound)

theorem keptApart (valid : (analyse model).type.isValid) : KeptApart (analyse model) where
  nodup := by
    have others : (analyse model).otherVariables.Nodup := Code.Program.nodup_of_place
      fun place found kept => by
        have kept : (analyse model).occupant? (.other place) = some found := kept
        obtain ⟨same, -⟩ := exists_entry_of_occupant valid kept
        rw [AnalysedVariable.cell] at same
        cases type : found.type <;> simp_all [Cell.of]
    refine (statesInPlace valid).nodup.append (others.filter _) ?_
    intro found isState isOther
    obtain ⟨place, kept⟩ := List.mem_iff_getElem?.mp isState
    have isConstant := eq_of_beq (List.mem_filter.mp isOther).2
    rw [(statesInPlace valid place found kept).1] at isConstant
    cases isConstant
  kept := by
    intro found membership
    obtain ⟨isState | isConstant, -⟩ := exists_entry_of_initialised valid membership
    · simp [valueSlot?, isState, Slot.of?]
    · simp [valueSlot?, isConstant, Slot.of?]
  apart := by
    intro one isOne other isOther same
    obtain ⟨first, record, -, entry⟩ := exists_entry_of_initialised valid isOne
    obtain ⟨slot, kept⟩ : ∃ slot, valueSlot? one = some slot := by
      rcases first with type | type <;> simp [valueSlot?, type, Slot.of?]
    exact eq_of_valueSlot? valid isOther entry (same ▸ kept) kept

/-! ## Equations without references -/

section Equations

variable {number order : Nat} {source equation : OrderedEquation} {item : Item}
  {result : AnalysedEquation} {role : Equation.Role} {declaration : Nat}

/-- An equation for a true constant refers to nothing but the class that it computes. -/
theorem ReportedAt.items_of_trueConstant (valid : (analyse model).type.isValid)
    (reportedAt : ReportedAt model place number order source equation item result)
    (isTrue : result.kind = .trueConstant) :
    source.items = [item] ∧ equation.items = source.items ∧
      ∃ record, item = .value record ∧ result.computes.type = .computedConstant := by
  rcases reportedAt.kind_cases valid with ⟨record, rfl, computes⟩ | ⟨_, -, isRate, -⟩
  · rw [reportedAt.kind] at isTrue
    cases computes with
    | trueConstant _ flag left =>
        have same := Elimination.items_of_trueConstant (ready model) (moves model)
          (start_getElem?.mpr reportedAt.ordered.foundSource) reportedAt.ordered.found flag
        refine ⟨same.symm.trans reportedAt.ordered.single, same, record, rfl, ?_⟩
        have type := (isEntry reportedAt.entry).type
        rw [Item.number_value, left] at type
        exact (Option.some.inj type).symm
    | variableBased same => cases same.symm.trans isTrue
    | algebraic same => cases same.symm.trans isTrue
  · cases isRate.symm.trans isTrue

/-- An equation for a true constant depends on no other one: what a dependency computes would have
gone from the items of the equation. -/
theorem not_dependsOn_of_trueConstant (valid : (analyse model).type.isValid) (dependency : Nat)
    (is : IsKind (analyse model).equations .trueConstant place) :
    ¬Code.DependsOn (analyse model).equations (fun _ => true) place dependency := by
  intro depends
  obtain ⟨result, found, isTrue⟩ := is
  obtain ⟨_, _, _, _, _, result', _, _, _, _, _, _, reportedAt, -, -, _, asked, gone, -⟩ :=
    exists_dependency_reportedAt valid depends
  obtain rfl := Option.some.inj (found.symm.trans reportedAt.found)
  obtain ⟨-, same, -⟩ := reportedAt.items_of_trueConstant valid isTrue
  exact gone (same ▸ asked)

/-- An equation for a true constant mentions the class that it computes only, unless in what
derivatives are by. -/
theorem ReportedAt.binds_of_trueConstant (valid : (analyse model).type.isValid)
    (reportedAt : ReportedAt model place number order source equation item result)
    (isTrue : result.kind = .trueConstant)
    (mentioned : (role, declaration) ∈ result.expr.mentions .plain) (asking : role ≠ .bound) :
    role = .plain ∧ (analyse model).Binds result.computes declaration := by
  obtain ⟨only, -, record, rfl, -⟩ := reportedAt.items_of_trueConstant valid isTrue
  rw [reportedAt.expr, Equation.Expr.mentions_rescale _ _ _ _ (by simp)] at mentioned
  obtain ⟨own, target, bound⟩ := exists_boundTo valid reportedAt.membership mentioned
  have asked : Item.ofRole role own ∈ source.items :=
    (ofRole_mem_items reportedAt.membership asking).mpr ⟨declaration, mentioned, bound.recorded⟩
  rw [only, List.mem_singleton] at asked
  obtain rfl : own = record := by simpa using congrArg Item.number asked
  refine ⟨?_, (reportedAt.binds_iff valid mentioned).mpr bound.recorded⟩
  cases role <;> simp_all [Item.ofRole]

theorem slot?_of_binds (binds : (analyse model).Binds found declaration) :
    Code.slot? (analyse model) (.plain, declaration) = valueSlot? found := by
  rw [Code.slot?, binds]
  rfl

/-- An equation for a true constant reads no element but that of the class that it computes. -/
theorem ReportedAt.mention_of_trueConstant (valid : (analyse model).type.isValid)
    (reportedAt : ReportedAt model place number order source equation item result)
    (isTrue : result.kind = .trueConstant)
    (mentioned : (role, declaration) ∈ result.expr.mentions .plain)
    (kept : Code.slot? (analyse model) (role, declaration) = some slot) :
    role = .plain ∧ (analyse model).Binds result.computes declaration ∧
      valueSlot? result.computes = some slot := by
  have asking : role ≠ .bound := by
    rintro rfl
    have inSource := mentioned
    rw [reportedAt.expr, Equation.Expr.mentions_rescale _ _ _ _ (by simp)] at inSource
    obtain ⟨own, target, bound⟩ := exists_boundTo valid reportedAt.membership inSource
    rw [Code.slot?, bound.binding, Option.bind_some,
      type_of_bound valid reportedAt.membership inSource bound] at kept
    cases kept
  obtain ⟨rfl, binds⟩ := reportedAt.binds_of_trueConstant valid isTrue mentioned asking
  exact ⟨rfl, binds, slot?_of_binds binds ▸ kept⟩

/-- If the statement of such an equation assigns to an element, it is that of the class. -/
theorem ReportedAt.target_of_trueConstant (valid : (analyse model).type.isValid)
    (reportedAt : ReportedAt model place number order source equation item result)
    (isTrue : result.kind = .trueConstant)
    (assigns : Statement.target? (analyse model) (.equation result) = some slot) :
    valueSlot? result.computes = some slot := by
  obtain ⟨⟨⟨role, declaration⟩, right⟩, assignment, kept⟩ := Option.bind_eq_some_iff.mp assigns
  exact (reportedAt.mention_of_trueConstant valid isTrue
    (Equation.Expr.mem_mentions_of_assignment assignment (.inl rfl)) kept).2.2

/-- What such an equation computes is neither a state nor a constant. -/
theorem ReportedAt.valueSlot?_ne_of_trueConstant (valid : (analyse model).type.isValid)
    (reportedAt : ReportedAt model place number order source equation item result)
    (isTrue : result.kind = .trueConstant)
    (membership : found ∈ Profile.initialised (analyse model))
    (kept : valueSlot? found = some slot) : valueSlot? result.computes ≠ some slot := by
  intro same
  obtain ⟨-, -, -, -, type⟩ := reportedAt.items_of_trueConstant valid isTrue
  obtain ⟨given, -⟩ := exists_entry_of_initialised valid membership
  rw [← eq_of_valueSlot? valid membership reportedAt.entry kept same, type] at given
  simp at given

/-- What is evaluated while states and constants are initialised are the true constants. -/
theorem mem_initialise_iff (valid : (analyse model).type.isValid)
    (reported : (analyse model).equations[place]? = some result) :
    place ∈ (Code.Schedule.ofModel (analyse model)).initialise ↔ result.kind = .trueConstant := by
  rw [Code.Schedule.mem_initialise_iff (ranked valid) fun _ dependency =>
    not_dependsOn_of_trueConstant valid dependency]
  simp [IsKind, reported]

end Equations

/-- In a model that can be solved a state or constant gets its initial value once while states and
constants are initialised. -/
theorem assignedOnce_of_storesInitial (valid : (analyse model).type.isValid)
    (membership : found ∈ Profile.initialised (analyse model))
    (kept : valueSlot? found = some slot) (stores : StoresInitial (analyse model) found only) :
    AssignedOnce (analyse model) slot only (initialisation (analyse model)) := by
  refine (stores.assignedOnce (keptApart valid) membership kept).append fun other listed => ?_
  obtain ⟨place, evaluated, image⟩ := List.mem_filterMap.mp listed
  obtain ⟨result, reported, rfl⟩ := Option.map_eq_some_iff.mp image
  have isTrue := (mem_initialise_iff valid reported).mp evaluated
  obtain ⟨_, _, _, _, _, reportedAt⟩ := exists_reportedAt valid reported
  exact fun assigns => reportedAt.valueSlot?_ne_of_trueConstant valid isTrue membership kept
    (reportedAt.target_of_trueConstant valid isTrue assigns)

/-- Each state and each constant gets its initial value once, if the variables that initial values
name are found. -/
theorem exists_assignedOnce_initialisation (valid : (analyse model).type.isValid)
    (names : NamesFound (analyse model))
    (membership : found ∈ Profile.initialised (analyse model)) :
    ∃ slot only, valueSlot? found = some slot ∧ StoresInitial (analyse model) found only ∧
      AssignedOnce (analyse model) slot only (initialisation (analyse model)) := by
  obtain ⟨given, record, -, entry⟩ := exists_entry_of_initialised valid membership
  obtain ⟨slot, kept⟩ := Option.isSome_iff_exists.mp ((keptApart valid).kept found membership)
  obtain ⟨only, stores⟩ := Code.Program.exists_storesInitial names membership
    (isSome_initialValue entry given)
  exact ⟨slot, only, kept, stores, assignedOnce_of_storesInitial valid membership kept stores⟩

end Analysis.Stage

end ComponentModel
