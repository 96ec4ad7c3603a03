import ComponentModel.Proofs.Conversion
import ComponentModel.Proofs.Initialisation
import ComponentModel.Proofs.Numbering
import ComponentModel.Proofs.Validation

/-!
# What accepted models are spared

An analysis passes over what it cannot use: a connection of names that are not declared, math that
cannot be read, units that are not known, and the name of no variable where an initial value should
be. None of this happens to a model that has been accepted, although a validation looks the same
things up elsewhere: by components and variables themselves, not by their numbers.
-/

namespace ComponentModel

namespace Analysis

/-! ## Names and numbers -/

namespace Index

variable {model : Model} {component : Component} {name : String} {declared : Variable}

/-- A component that is found by its name has a number. -/
theorem exists_componentId (found : model.findComponent name = some component) :
    ∃ number, (ofModel model).componentId? name = some number ∧
      (ofModel model).components[number]? = some component := by
  have numbers := numbers_componentId model name
  rw [found] at numbers
  generalize (ofModel model).componentId? name = number? at numbers ⊢
  cases numbers with
  | some numbered => exact ⟨_, rfl, numbered⟩

/-- A variable that is found in a component by its name has a number. -/
theorem exists_lookup {number : Nat}
    (numbered : (ofModel model).components[number]? = some component)
    (found : component.findVariable name = some declared) :
    ∃ declaration, (ofModel model).lookup? number name = some declaration := by
  have declares := declares_lookup numbered name
  rw [found] at declares
  generalize (ofModel model).lookup? number name = declaration? at declares ⊢
  cases declares with
  | some => exact ⟨_, rfl⟩

/-- The declarations of all declared pairs are equivalent. -/
theorem equivalent_of_mem_pairsOf {joined : Connection} (declared : joined ∈ model.connections)
    {one other : Nat} (paired : (one, other) ∈ (ofModel model).pairsOf joined) :
    (ofModel model).equivalent one other :=
  equivalent_iff.mpr (classOf_eq_iff.mpr (.rel _ _
    (mem_flatMap_pairsOf.mp (List.mem_flatMap.mpr ⟨joined, declared, paired⟩))))

/-- The declarations of the components. -/
theorem mem_declarations {own : Declared} :
    own ∈ (ofModel model).declarations ↔ ∃ declaring ∈ model.preorder,
      ∃ declared ∈ declaring.declarations,
        ⟨declaring.name, declared.name, declared.units, declared.initialValue⟩ = own := by
  have all : (ofModel model).declarations = model.preorder.flatMap declaredBy := rfl
  simp [all, declaredBy]

end Index

end Analysis

/-! ## Units -/

/-- There is a factor between units that are known, or they are not compatible. -/
theorem Units.Registry.scalingFactor_ne_unknown {registry : Registry} {own reference : String}
    (knownOwn : registry.contains own) (knownReference : registry.contains reference)
    (name : String) : registry.scalingFactor own reference ≠ .error (.unknown name) := by
  have canonical_ok {units : String} (known : registry.contains units) :
      ∃ found, registry.canonical units = .ok found := by
    obtain ⟨found, isFound⟩ := Option.isSome_iff_exists.mp known
    exact ⟨found, by rw [canonical, isFound]⟩
  obtain ⟨ownUnits, isOwn⟩ := canonical_ok knownOwn
  obtain ⟨referenceUnits, isReference⟩ := canonical_ok knownReference
  intro failed
  rw [scalingFactor, isOwn, isReference] at failed
  rcases bind_eq_error failed with unknown | ⟨_, -, failed⟩
  · cases unknown
  rcases bind_eq_error failed with unknown | ⟨_, -, failed⟩
  · cases unknown
  split at failed <;> cases failed

namespace Analysis.Stage

open Code (Profile Slot)
open Code.Program (AssignedOnce NamesFound StoresInitial initialisation)

variable {strict : Bool} {model : Model}

/-! ## Initial values -/

/-- A name of a variable that is declared in a component stands for a variable of a model that can
be solved. -/
theorem exists_standsFor_of_name (valid : (analyse model).type.isValid) {declaring : Component}
    (within : declaring ∈ model.preorder) {name : String}
    (found : (declaring.findVariable name).isSome) :
    ∃ declaration source, (analyse model).declarationOf? declaring.name name = some declaration ∧
      (analyse model).StandsFor (index model) declaration source ∧
      (analyse model).bindingOf? declaring.name name = some (source.type, source.place) := by
  obtain ⟨declared, isDeclared, named⟩ := List.find?_isSome.mp found
  have isSome : ((analyse model).declarationOf? declaring.name name).isSome := by
    rw [AnalysedModel.declarationOf?, declarations_analyse valid, List.findIdx?_isSome,
      List.any_eq_true]
    exact ⟨_, Index.mem_declarations.mpr ⟨declaring, within, declared, isDeclared, rfl⟩,
      by simpa using named⟩
  obtain ⟨declaration, isDeclaration⟩ := Option.isSome_iff_exists.mp isSome
  have inside : declaration < (index model).declarations.length := by
    rw [← declarations_analyse valid]
    exact (List.findIdx?_eq_some_iff_getElem.mp isDeclaration).1
  obtain ⟨record, recorded⟩ := exists_record inside
  obtain ⟨source, entry⟩ := exists_entry valid (Registry.lt_of_find? recorded)
  have stands := standsFor valid inside recorded entry
  refine ⟨declaration, source, isDeclaration, stands, ?_⟩
  rw [AnalysedModel.bindingOf?, isDeclaration, Option.bind_some, stands.binding]

/-- The names in the initial values of an accepted model stand for variables. -/
theorem exists_standsFor_of_initial (accepted : model.validate strict = .ok ())
    (valid : (analyse model).type.isValid) {found : AnalysedVariable}
    (membership : found ∈ Profile.initialised (analyse model)) {name : String}
    (named : found.initial.initialValue.bind InitialValue.variableName = some name) :
    ∃ declaration source,
      (analyse model).declarationOf? found.initial.component name = some declaration ∧
      (analyse model).StandsFor (index model) declaration source ∧
      (analyse model).bindingOf? found.initial.component name =
        some (source.type, source.place) := by
  obtain ⟨-, record, known, entry⟩ := exists_entry_of_initialised valid membership
  have isDeclared : found.initial ∈ (index model).declarations := by
    rw [(isEntry entry).initial]
    exact List.mem_of_getElem? (getElem?_declarations (initialDeclaration_lt known))
  obtain ⟨declaring, within, declared, membership, same⟩ := Index.mem_declarations.mp isDeclared
  obtain ⟨-, registry, -, components, -⟩ := Validation.steps_ok accepted
  rw [← same] at named ⊢
  exact exists_standsFor_of_name valid within
    ((Validation.component_ok (components declaring within) declared membership).2 name named)

theorem namesFound (accepted : model.validate strict = .ok ())
    (valid : (analyse model).type.isValid) : NamesFound (analyse model) := by
  intro found membership name named
  obtain ⟨_, _, -, -, bound⟩ := exists_standsFor_of_initial accepted valid membership named
  exact Option.isSome_of_eq_some bound

/-! ## Nothing is passed over -/

/-- Of a model that has been accepted, an analysis and the generated code pass over nothing. Every
declared pair is found and makes its two variables equivalent. The math of every component that is
visited can be read. The units of the model can be resolved, and no factor is asked for units that
are not known. If the model can be solved, the code that initialises states and constants assigns to
each of them once and by its initial value, and every name that is an initial value stands for a
variable. -/
theorem nothing_passed_over (accepted : model.validate strict = .ok ()) :
    (∀ joined ∈ model.connections, ∀ equated ∈ joined.pairs, ∃ first second one other,
      (index model).componentId? joined.first = some first ∧
      (index model).componentId? joined.second = some second ∧
      (index model).lookup? first equated.first = some one ∧
      (index model).lookup? second equated.second = some other ∧
      (index model).equivalent one other) ∧
    (∀ visited ∈ (index model).components, ∀ text, visited.math = some text →
      ∃ roots, Markup.readMath text = .ok roots) ∧
    (∃ registry, Units.Registry.ofDefinitions model.units = .ok registry ∧
      ∀ own ∈ (index model).declarations, ∀ reference ∈ (index model).declarations, ∀ name,
        registry.scalingFactor own.units reference.units ≠ .error (.unknown name)) ∧
    ((analyse model).type.isValid →
      (∀ profile : Profile,
        profile.procedure .implementationInitializeStatesAndConstantsMethod
            (Code.Program.text (analyse model) profile (initialisation (analyse model))) ∈
          profile.implementationSections (analyse model)) ∧
      ∀ found, found ∈ (analyse model).states ∨
          found ∈ (analyse model).otherVariables ∧ found.type = .constant →
        (∃ slot only, Slot.of? false found.type found.place = some slot ∧
          StoresInitial (analyse model) found only ∧
          AssignedOnce (analyse model) slot only (initialisation (analyse model))) ∧
        ∀ name, found.initial.initialValue.bind InitialValue.variableName = some name →
          ∃ declaration source,
            (analyse model).declarationOf? found.initial.component name = some declaration ∧
            (analyse model).StandsFor (index model) declaration source ∧
            (analyse model).bindingOf? found.initial.component name =
              some (source.type, source.place)) := by
  obtain ⟨-, registry, resolved, components, read, connected⟩ := Validation.steps_ok accepted
  refine ⟨fun joined declared equated paired => ?_, fun visited isVisited text written => ?_,
    ⟨registry, ?_, fun own isOwn reference isReference name => ?_⟩,
    fun valid => ⟨fun profile => Code.Program.procedure_mem_sections (analyse model) profile,
      fun found given => ?_⟩⟩
  · obtain ⟨used, passed⟩ := connected joined declared
    obtain ⟨first, second, foundFirst, foundSecond, pairs⟩ := Validation.connection_ok passed
    obtain ⟨one, other, foundOne, foundOther⟩ := pairs equated paired
    obtain ⟨firstId, isFirst, numberedFirst⟩ := Index.exists_componentId foundFirst
    obtain ⟨secondId, isSecond, numberedSecond⟩ := Index.exists_componentId foundSecond
    obtain ⟨oneId, isOne⟩ := Index.exists_lookup numberedFirst foundOne
    obtain ⟨otherId, isOther⟩ := Index.exists_lookup numberedSecond foundOther
    refine ⟨firstId, secondId, oneId, otherId, isFirst, isSecond, isOne, isOther,
      Index.equivalent_of_mem_pairsOf declared ?_⟩
    rw [Index.pairsOf, isFirst, isSecond]
    exact List.mem_filterMap.mpr ⟨equated, paired, by simp only [isOne, isOther]⟩
  · obtain ⟨used, passed⟩ := read visited isVisited
    exact Validation.math_ok passed written
  · obtain ⟨_, -, resolved⟩ := bind_eq_ok resolved
    exact Validation.mapError_ok resolved
  · obtain ⟨declaring, within, declared, membership, rfl⟩ := Index.mem_declarations.mp isOwn
    obtain ⟨declaring', within', declared', membership', rfl⟩ :=
      Index.mem_declarations.mp isReference
    exact Units.Registry.scalingFactor_ne_unknown
      (Validation.component_ok (components declaring within) declared membership).1
      (Validation.component_ok (components declaring' within') declared' membership').1 name
  · have membership : found ∈ Profile.initialised (analyse model) := by
      rw [Profile.initialised, List.mem_append, List.mem_filter, beq_iff_eq]
      exact given
    exact ⟨exists_assignedOnce_initialisation valid (namesFound accepted valid) membership,
      fun name named => exists_standsFor_of_initial accepted valid membership named⟩

/-! ## Two tanks -/

/-- Two tanks that are filled from the same level on, and a gauge on the first one. -/
def tanks : Model where
  schema := "1.0"
  name := "tanks"
  units := []
  components :=
    [{ name := "tanks"
       declarations :=
        [⟨"t", "second", none, none⟩, ⟨"x", "litre", some (.number 1), some .public⟩,
         ⟨"y", "litre", some (.text " x "), none⟩]
       math := some ("<math><apply><eq/><apply><diff/><bvar><ci>t</ci></bvar><ci>x</ci></apply>" ++
        "<cn>2</cn></apply><apply><eq/><apply><diff/><bvar><ci>t</ci></bvar><ci>y</ci></apply>" ++
        "<cn>3</cn></apply></math>")
       components := []
       source := none },
     { name := "gauge"
       declarations := [⟨"level", "litre", none, some .public⟩]
       math := none
       components := []
       source := none }]
  connections := [⟨"tanks", "gauge", [⟨"x", "level"⟩]⟩]

theorem validate_tanks : tanks.validate false = .ok () := by
  decide +kernel

theorem gathered_tanks : Gathered.ofIndex (index tanks) =
    ⟨[⟨0, 0, 0, .unknown, none, none⟩, ⟨1, 1, 1, .constant, none, none⟩,
      ⟨2, 2, 2, .constant, none, none⟩],
      [.new (.apply .assignment (.apply .diff (.apply .bvar (.reference 0) .absent) (.reference 1))
        (.number "2")) 0 [] [1],
       .new (.apply .assignment (.apply .diff (.apply .bvar (.reference 0) .absent) (.reference 2))
        (.number "3")) 0 [] [2]], []⟩ := by
  cbv

theorem derivatives_tanks : derivatives tanks =
    ⟨⟨[⟨0, 0, 0, .integrationVariable, none, none⟩, ⟨1, 1, 1, .state, none, none⟩,
      ⟨2, 2, 2, .state, none, none⟩],
      (Gathered.ofIndex (index tanks)).equations, []⟩, some 0⟩ := by
  rw [derivatives, gathered_tanks]
  cbv

theorem registry_tanks : (final tanks).registry =
    [⟨0, 0, 0, .integrationVariable, none, none⟩, ⟨1, 1, 1, .state, some 0, some 0⟩,
     ⟨2, 2, 2, .state, some 1, some 1⟩] := by
  have constants : ∀ record ∈ (derivatives tanks).gathered.registry,
      record.kind ≠ .constant := by
    rw [derivatives_tanks]
    decide
  rw [final, start, startOfElimination_of_no_constants _ constants, derivatives_tanks,
    gathered_tanks]
  cbv

theorem valid_tanks : (analyse tanks).type.isValid := by
  have gathered : (Gathered.ofIndex (index tanks)).issues = [] := by rw [gathered_tanks]
  have derived : (derivatives tanks).gathered.issues = [] := by rw [derivatives_tanks]
  rw [type_analyse gathered derived, registry_tanks, derivatives_tanks]
  rfl

/-- The level of the second tank. -/
theorem states_tanks : (analyse tanks).states[1]? =
    some ⟨⟨"tanks", "y", "litre", some (.text " x ")⟩, ⟨"tanks", "y", "litre", some (.text " x ")⟩,
      .state, 1⟩ := by
  change (analyse tanks).occupant? (.state 1) = _
  rw [occupant?_analyse valid_tanks, layout, registry_tanks]
  cbv

theorem name_tanks : (some (InitialValue.text " x ")).bind InitialValue.variableName =
    some "x" := by
  rfl

/-- The second tank gets the level of the first one, once. -/
theorem tanks_start_alike :
    tanks.validate false = .ok () ∧ (analyse tanks).type.isValid ∧
      ∃ found source : AnalysedVariable, (analyse tanks).states[1]? = some found ∧
        found.initial.initialValue = some (.text " x ") ∧
        (analyse tanks).bindingOf? "tanks" "x" = some (source.type, source.place) ∧
        AssignedOnce (analyse tanks) (.state 1) (.copy found source.type source.place)
          (initialisation (analyse tanks)) := by
  obtain ⟨-, -, -, solved⟩ := nothing_passed_over validate_tanks
  obtain ⟨⟨slot, only, kept, stores, once⟩, named⟩ :=
    (solved valid_tanks).2 _ (.inl (List.mem_of_getElem? states_tanks))
  obtain ⟨_, source, -, -, bound⟩ := named "x" name_tanks
  refine ⟨validate_tanks, valid_tanks, _, source, states_tanks, rfl, bound, ?_⟩
  obtain rfl := Option.some.inj kept
  cases stores with
  | literal given =>
      cases name_tanks.symm.trans
        (Code.Program.variableName_of_literal (Option.isSome_of_eq_some given))
  | copy other boundOther =>
      obtain rfl := Option.some.inj (name_tanks.symm.trans other)
      obtain rfl := Option.some.inj (bound.symm.trans boundOther)
      exact once

end Analysis.Stage

end ComponentModel
