import ComponentModel.Proofs.Validity.Conditions

/-!
# The steps of a validation

Every step checks the conditions that are listed for it, in their order. Names are checked against
the names in front of them, units against the resolved definitions, and the pairs of a connection in
the two components that it joins. Since the units of all variables are known by then, comparing the
units of a pair does not fail.
-/

namespace ComponentModel

namespace Validation

variable {model : Model} {strict : Bool} {registry : Units.Registry} {declaring : Component}

/-! ## The steps of a validation -/

theorem mem_snoc_iff {seen earlier : List String} (same : ∀ word, word ∈ seen ↔ word ∈ earlier)
    (name word : String) : word ∈ name :: seen ↔ word ∈ earlier ++ [name] := by
  simp [same, or_comm]

theorem decides_componentNames {seen earlier words : List String}
    (same : ∀ word, word ∈ seen ↔ word ∈ earlier) :
    Decides model (Condition.each Condition.ofComponentName earlier words)
      (componentNames model.name seen words) := by
  induction words generalizing seen earlier with
  | nil => exact .pass ()
  | cons name rest ih =>
      refine .require (by simp [Condition.Holds]) (.componentNamed name) fun _ => ?_
      refine .require (by simp [Condition.Holds, same]) (.componentDistinct earlier name) fun _ => ?_
      exact ih (mem_snoc_iff same name)

theorem decides_names : Decides model (Condition.ofNames model) (names model) :=
  .require (by simp [Condition.Holds]) .modelNamed fun _ => decides_componentNames fun _ => .rfl

theorem decides_unitsNames {seen earlier words : List String}
    (same : ∀ word, word ∈ seen ↔ word ∈ earlier) :
    Decides model (Condition.each Condition.ofUnitsName earlier words) (unitsNames seen words) := by
  induction words generalizing seen earlier with
  | nil => exact .pass ()
  | cons name rest ih =>
      refine .require (by simp [Condition.Holds]) (.unitsNew name) fun _ => ?_
      refine .require (by simp [Condition.Holds, same]) (.unitsDistinct earlier name) fun _ => ?_
      exact ih (mem_snoc_iff same name)

theorem decides_resolution : Decides model [.unitsResolved]
    ((Units.Registry.ofDefinitions model.units).mapError .units) where
  passes {registry} passed := by
    rw [List.forall_mem_singleton]
    exact Units.Registry.exists_ofDefinitions_iff_wellDefined.mp ⟨registry, mapError_ok passed⟩
  fails {fault} failed := by
    obtain ⟨cause, refused, rfl⟩ := mapError_error failed
    refine .here (fun wellDefined => ?_) (.unitsResolved refused)
    obtain ⟨registry, built⟩ := Units.Registry.exists_ofDefinitions_iff_wellDefined.mpr wellDefined
    cases refused.symm.trans built

theorem decides_units : Decides model (Condition.ofUnits model) (units model) :=
  (decides_unitsNames fun _ => .rfl).bind fun _ _ _ => decides_resolution

theorem ofDefinitions_of_units (resolved : units model = .ok registry) :
    Units.Registry.ofDefinitions model.units = .ok registry := by
  obtain ⟨_, -, resolved⟩ := bind_eq_ok resolved
  exact mapError_ok resolved

/-- The names of units that are known are those that are defined and the built-in ones. -/
theorem contains_iff (resolved : units model = .ok registry) {name : String} :
    registry.contains name ↔
      name ∈ model.units.map UnitsDefinition.name ∨ Units.isBuiltin name := by
  have built := ofDefinitions_of_units resolved
  rw [Units.Registry.contains, Option.isSome_iff_exists]
  simp only [Units.Registry.canonical?_eq_some_iff built]
  refine ⟨fun ⟨_, denotes⟩ => denotes.known, fun known => ?_⟩
  by_cases defined : name ∈ model.units.map UnitsDefinition.name
  · exact (Units.Registry.exists_ofDefinitions_iff_wellDefined.mp ⟨_, built⟩).exists_denotes defined
  · obtain ⟨units, isBuiltin⟩ := Option.isSome_iff_exists.mp (known.resolve_left defined)
    exact ⟨units, .builtin (Units.effective?_eq_none_iff.mpr defined) isBuiltin⟩

theorem decides_declarations (resolved : units model = .ok registry) {seen : List String}
    {earlier declared : List Variable}
    (same : ∀ word, word ∈ seen ↔ word ∈ earlier.map Variable.name) :
    Decides model (Condition.each (Condition.ofVariable declaring) earlier declared)
      (declarations registry declaring.name seen declared) := by
  induction declared generalizing seen earlier with
  | nil => exact .pass ()
  | cons own rest ih =>
      refine .require (by simp [Condition.Holds]) (.variableNamed declaring own) fun _ => ?_
      refine .require (by simp [Condition.Holds, same])
        (.variableDistinct declaring (earlier.map Variable.name) own.name) fun _ => ?_
      refine .require (contains_iff resolved) (.unitsKnown own) fun _ => ih fun word => ?_
      rw [mem_snoc_iff same, List.map_append, List.map_singleton]

theorem decides_initialValue (declared : Variable) :
    Decides model [.initialFound declaring declared] (initialValue declaring declared) := by
  have found_iff (name : String) : (declaring.findVariable name).isSome ↔
      name ∈ declaring.declarations.map Variable.name := by
    simp [Component.findVariable]
  unfold initialValue
  split
  next absent => exact .known (by simp [Condition.Holds, absent]) (.pass ())
  next name refers =>
    refine .require_last ?_ (.initialFound declaring refers)
    simp [Condition.Holds, refers, found_iff]

theorem decides_component (resolved : units model = .ok registry) (declaring : Component) :
    Decides model (Condition.ofComponent declaring) (component registry declaring) := by
  unfold component
  simp only
  split
  next source imported =>
    exact .refuse (by simp [Condition.Holds, imported]) (.componentWritten imported)
  next written =>
    refine .known written ((decides_declarations resolved (fun _ => .rfl)).bind fun _ _ _ => ?_)
    rw [List.map_eq_flatMap]
    exact .forEach fun declared _ => decides_initialValue declared

theorem decides_math (declaring : Component) :
    Decides model [.mathRead declaring] (math declaring) := by
  unfold math
  split
  next absent => exact .known (by simp [Condition.Holds, absent]) (.pass _)
  next text written =>
    split
    next cause failed =>
      exact .refuse (by simp [Condition.Holds, written, failed]) (.mathRead written failed)
    next roots read => exact .known (by simp [Condition.Holds, written, read]) (.pass _)

/-! ## Connections -/

theorem isShown_iff {declared : Variable} :
    (match declared.face with
      | some .none => false
      | some _ => true
      | none => false) = true ↔ declared.IsShown := by
  unfold Variable.IsShown
  rcases declared.face with - | (- | - | - | -) <;> simp

/-- The units of variables are known, and their dimensions can be compared. -/
theorem compatible_eq (resolved : units model = .ok registry) {one other : Variable}
    (knownOne : (Condition.unitsKnown one).Holds model)
    (knownOther : (Condition.unitsKnown other).Holds model) :
    ∃ alike, registry.compatible one.units other.units = .ok alike ∧
      (alike = true ↔ model.SameDimensions one.units other.units) := by
  have built := ofDefinitions_of_units resolved
  have known {declared : Variable} (holds : (Condition.unitsKnown declared).Holds model) :
      ∃ units, registry.canonical? declared.units = some units :=
    Option.isSome_iff_exists.mp ((contains_iff resolved).mpr holds)
  obtain ⟨first, isFirst⟩ := known knownOne
  obtain ⟨second, isSecond⟩ := known knownOther
  refine ⟨first.sameDimensions second, ?_, fun same => ?_, fun ⟨first', second', means, meansOther,
    same⟩ => ?_⟩
  · rw [Units.Registry.compatible, Units.Registry.canonical, Units.Registry.canonical, isFirst,
      isSecond]
    rfl
  · exact ⟨first, second, (Units.Registry.canonical?_eq_some_iff built).mp isFirst,
      (Units.Registry.canonical?_eq_some_iff built).mp isSecond, same⟩
  · cases isFirst.symm.trans ((Units.Registry.canonical?_eq_some_iff built).mpr means)
    cases isSecond.symm.trans ((Units.Registry.canonical?_eq_some_iff built).mpr meansOther)
    exact same

theorem mem_preorder_of_findComponent {name : String}
    (found : model.findComponent name = some declaring) :
    declaring ∈ model.preorder ∧ declaring.name = name :=
  ⟨List.mem_of_find?_eq_some found, by simpa using List.find?_some found⟩

theorem mem_declarations_of_findVariable {name : String} {declared : Variable}
    (found : declaring.findVariable name = some declared) :
    declared ∈ declaring.declarations ∧ declared.name = name :=
  ⟨List.mem_of_find?_eq_some found, by simpa using List.find?_some found⟩

section Pairs

variable {joined : Connection} {first second : Component}
  (foundFirst : model.findComponent joined.first = some first)
  (foundSecond : model.findComponent joined.second = some second)

include foundFirst foundSecond

theorem decides_pair (resolved : units model = .ok registry)
    (known : ∀ declaring ∈ model.preorder, ∀ declared ∈ declaring.declarations,
      (Condition.unitsKnown declared).Holds model) (equated : VariablePair) :
    Decides model (Condition.ofPair strict joined equated)
      (pair strict registry joined first second equated) := by
  obtain ⟨withinFirst, namedFirst⟩ := mem_preorder_of_findComponent foundFirst
  obtain ⟨withinSecond, namedSecond⟩ := mem_preorder_of_findComponent foundSecond
  have isFirst (name : String) : model.findVariable joined.first name = first.findVariable name := by
    rw [Model.findVariable, foundFirst, Option.bind_some]
  have isSecond (name : String) :
      model.findVariable joined.second name = second.findVariable name := by
    rw [Model.findVariable, foundSecond, Option.bind_some]
  unfold pair
  simp only [namedFirst, namedSecond]
  cases foundOne : first.findVariable equated.first with
  | none =>
      refine .refuse ?_ (.endDeclared joined joined.first equated.first)
      simp [Condition.Holds, isFirst, foundOne]
  | some one =>
  refine .known (by simp [Condition.Holds, isFirst, foundOne]) ?_
  cases foundOther : second.findVariable equated.second with
  | none =>
      refine .refuse ?_ (.endDeclared joined joined.second equated.second)
      simp [Condition.Holds, isSecond, foundOther]
  | some other =>
  refine .known (by simp [Condition.Holds, isSecond, foundOther]) ?_
  obtain ⟨memberOne, namedOne⟩ := mem_declarations_of_findVariable foundOne
  obtain ⟨memberOther, namedOther⟩ := mem_declarations_of_findVariable foundOther
  obtain ⟨alike, compared, alike_iff⟩ := compatible_eq resolved
    (known first withinFirst one memberOne) (known second withinSecond other memberOther)
  simp only [compared, namedOne, namedOther, connectedInterface, namedFirst, namedSecond]
  have asks : alike = true ↔ (Condition.sameDimensions joined equated).Holds model := by
    simp [Condition.Holds, isFirst, isSecond, foundOne, foundOther, alike_iff]
  refine Decides.require asks (.sameDimensions joined equated) fun _ => ?_
  cases strict with
  | false => exact .pass _
  | true =>
      have shownOne : one.IsShown ↔ (Condition.endShown joined.first equated.first).Holds model := by
        simp [Condition.Holds, isFirst, foundOne]
      have shownOther :
          other.IsShown ↔ (Condition.endShown joined.second equated.second).Holds model := by
        simp [Condition.Holds, isSecond, foundOther]
      refine .require (isShown_iff.trans shownOne) (.endShown joined.first equated.first) fun _ => ?_
      exact .require (isShown_iff.trans shownOther) (.endShown joined.second equated.second)
        fun _ => .pass _

end Pairs

theorem findComponent_isSome_iff {name : String} :
    (model.findComponent name).isSome ↔ name ∈ model.preorder.map Component.name := by
  simp [Model.findComponent]

theorem decides_connection (resolved : units model = .ok registry)
    (known : ∀ declaring ∈ model.preorder, ∀ declared ∈ declaring.declarations,
      (Condition.unitsKnown declared).Holds model) (joined : Connection) :
    Decides model (Condition.ofConnection strict joined)
      (connection strict registry model joined) := by
  unfold connection
  cases foundFirst : model.findComponent joined.first with
  | none =>
      refine .refuse ?_ (.endFound joined joined.first)
      rw [Condition.Holds, ← findComponent_isSome_iff, foundFirst]
      exact Bool.false_ne_true
  | some first =>
  refine .known (findComponent_isSome_iff.mp (Option.isSome_of_eq_some foundFirst)) ?_
  cases foundSecond : model.findComponent joined.second with
  | none =>
      refine .refuse ?_ (.endFound joined joined.second)
      rw [Condition.Holds, ← findComponent_isSome_iff, foundSecond]
      exact Bool.false_ne_true
  | some second =>
  refine .known (findComponent_isSome_iff.mp (Option.isSome_of_eq_some foundSecond)) ?_
  simp only
  rw [(mem_preorder_of_findComponent foundFirst).2, (mem_preorder_of_findComponent foundSecond).2]
  refine .require (by simp [Condition.Holds]) (.endsDiffer joined) fun _ => ?_
  refine .require (by simp [Condition.Holds]) (.paired joined) fun _ => ?_
  exact .collect fun equated _ => decides_pair foundFirst foundSecond resolved known equated

end Validation

end ComponentModel
