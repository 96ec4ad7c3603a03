import ComponentModel.Model.Validation
import Mathlib.Data.List.Basic

/-!
# Accepted models

What a model satisfies that passes every check, and which check reports a fault. A check that goes
through a list accepts it exactly if it accepts every member, and its fault is that of a member; so
whatever is accepted can be read off one component or one connection at a time.
-/

namespace ComponentModel

/-! ## Outcomes of a sequence -/

section Outcomes

variable {Value Result Fault : Type} {first : Except Fault Value}
  {next : Value → Except Fault Result}

theorem bind_eq_ok {result : Result} (done : (first >>= next) = .ok result) :
    ∃ value, first = .ok value ∧ next value = .ok result := by
  cases first with
  | error fault => cases done
  | ok value => exact ⟨value, rfl, done⟩

theorem bind_eq_error {fault : Fault} (failed : (first >>= next) = .error fault) :
    first = .error fault ∨ ∃ value, first = .ok value ∧ next value = .error fault := by
  cases first with
  | error other => exact .inl (congrArg Except.error (Except.error.inj failed))
  | ok value => exact .inr ⟨value, rfl, failed⟩

end Outcomes

namespace Validation

variable {fault : ModelFault} {registry : Units.Registry}

/-! ## Checks of lists -/

section Lists

variable {α : Type} {values : List α} {condition : Bool} {other : ModelFault}

theorem require_ok (passed : require condition fault = .ok ()) : condition = true := by
  cases condition with
  | false => cases passed
  | true => rfl

theorem require_error (failed : require condition other = .error fault) :
    condition = false ∧ fault = other := by
  cases condition with
  | false => exact ⟨rfl, (Except.error.inj failed).symm⟩
  | true => cases failed

theorem forEach_ok {check : α → Except ModelFault Unit} (passed : forEach check values = .ok ()) :
    ∀ value ∈ values, check value = .ok () := by
  induction values with
  | nil => simp
  | cons head rest ih =>
      obtain ⟨⟨⟩, here, later⟩ := bind_eq_ok passed
      exact List.forall_mem_cons.mpr ⟨here, ih later⟩

theorem forEach_error {check : α → Except ModelFault Unit}
    (failed : forEach check values = .error fault) : ∃ value ∈ values, check value = .error fault := by
  induction values with
  | nil => cases failed
  | cons head rest ih =>
      rcases bind_eq_error failed with here | ⟨_, -, later⟩
      · exact ⟨head, List.mem_cons_self, here⟩
      · obtain ⟨value, membership, failed⟩ := ih later
        exact ⟨value, List.mem_cons_of_mem _ membership, failed⟩

theorem collect_ok {check : α → Except ModelFault (List UsedVariable)} {used : List UsedVariable}
    (passed : collect check values = .ok used) : ∀ value ∈ values, ∃ part, check value = .ok part := by
  induction values generalizing used with
  | nil => simp
  | cons head rest ih =>
      obtain ⟨part, here, passed⟩ := bind_eq_ok passed
      obtain ⟨others, later, -⟩ := bind_eq_ok passed
      exact List.forall_mem_cons.mpr ⟨⟨part, here⟩, ih later⟩

theorem collect_error {check : α → Except ModelFault (List UsedVariable)}
    (failed : collect check values = .error fault) : ∃ value ∈ values, check value = .error fault := by
  induction values with
  | nil => cases failed
  | cons head rest ih =>
      rcases bind_eq_error failed with here | ⟨_, -, failed⟩
      · exact ⟨head, List.mem_cons_self, here⟩
      rcases bind_eq_error failed with later | ⟨_, -, failed⟩
      · obtain ⟨value, membership, failed⟩ := ih later
        exact ⟨value, List.mem_cons_of_mem _ membership, failed⟩
      · cases failed

end Lists

/-! ## Steps of a validation -/

/-- What has been accepted has passed every step. -/
theorem steps_ok {strict : Bool} {model : Model} (accepted : model.validate strict = .ok ()) :
    names model = .ok () ∧ ∃ registry, units model = .ok registry ∧
      (∀ declaring ∈ model.preorder, component registry declaring = .ok ()) ∧
      (∀ declaring ∈ model.preorder, ∃ used, math declaring = .ok used) ∧
      ∀ joined ∈ model.connections, ∃ used,
        connection strict registry model joined = .ok used := by
  obtain ⟨⟨⟩, named, accepted⟩ := bind_eq_ok accepted
  obtain ⟨registry, resolved, accepted⟩ := bind_eq_ok accepted
  obtain ⟨⟨⟩, declared, accepted⟩ := bind_eq_ok accepted
  obtain ⟨inMath, read, accepted⟩ := bind_eq_ok accepted
  obtain ⟨connected, joined, -⟩ := bind_eq_ok accepted
  exact ⟨named, registry, resolved, forEach_ok declared, collect_ok read, collect_ok joined⟩

/-- What is reported for a model is the fault of one of the steps. -/
theorem steps_error {strict : Bool} {model : Model} (failed : model.validate strict = .error fault) :
    names model = .error fault ∨ units model = .error fault ∨
      (∃ registry, ∃ declaring ∈ model.preorder, component registry declaring = .error fault) ∨
      (∃ declaring ∈ model.preorder, math declaring = .error fault) ∨
      (∃ registry, ∃ joined ∈ model.connections,
        connection strict registry model joined = .error fault) ∨
      ∃ used, ∃ declaring ∈ model.preorder, usage used declaring = .error fault := by
  rcases bind_eq_error failed with named | ⟨_, -, failed⟩
  · exact .inl named
  rcases bind_eq_error failed with resolved | ⟨registry, -, failed⟩
  · exact .inr (.inl resolved)
  rcases bind_eq_error failed with declared | ⟨_, -, failed⟩
  · exact .inr (.inr (.inl ⟨registry, forEach_error declared⟩))
  rcases bind_eq_error failed with read | ⟨inMath, -, failed⟩
  · exact .inr (.inr (.inr (.inl (collect_error read))))
  rcases bind_eq_error failed with joined | ⟨connected, -, failed⟩
  · exact .inr (.inr (.inr (.inr (.inl ⟨registry, collect_error joined⟩))))
  split at failed
  case isTrue => exact .inr (.inr (.inr (.inr (.inr ⟨_, forEach_error failed⟩))))
  case isFalse => cases failed

/-! ## What the steps accept -/

theorem declarations_ok {declaring : String} {seen : List String} {declared : List Variable}
    (passed : declarations registry declaring seen declared = .ok ()) :
    ∀ own ∈ declared, registry.contains own.units := by
  induction declared generalizing seen with
  | nil => simp
  | cons head rest ih =>
      obtain ⟨⟨⟩, -, passed⟩ := bind_eq_ok passed
      obtain ⟨⟨⟩, -, passed⟩ := bind_eq_ok passed
      obtain ⟨⟨⟩, known, passed⟩ := bind_eq_ok passed
      exact List.forall_mem_cons.mpr ⟨require_ok known, ih passed⟩

/-- The units of all variables of an accepted component are known, and so are the variables that
its initial values name. -/
theorem component_ok {declaring : Component} (passed : component registry declaring = .ok ()) :
    ∀ declared ∈ declaring.declarations, registry.contains declared.units ∧
      ∀ reference, initialReference declared = some reference →
        (declaring.findVariable reference).isSome := by
  unfold component at passed
  simp only at passed
  split at passed
  next => cases passed
  next =>
    obtain ⟨⟨⟩, known, passed⟩ := bind_eq_ok passed
    intro declared membership
    refine ⟨declarations_ok known declared membership, fun reference refers => ?_⟩
    have passed := forEach_ok passed declared membership
    rw [initialValue, refers] at passed
    exact require_ok passed

theorem math_ok {declaring : Component} {used : List UsedVariable}
    (passed : math declaring = .ok used) {text : String} (written : declaring.math = some text) :
    ∃ roots, Markup.readMath text = .ok roots := by
  rw [math, written] at passed
  split at passed
  next absent => cases absent
  next same =>
    obtain rfl := Option.some.inj same
    split at passed
    next => cases passed
    next roots read => exact ⟨roots, read⟩

theorem pair_ok {strict : Bool} {joined : Connection} {first second : Component}
    {equated : VariablePair} {used : List UsedVariable}
    (passed : pair strict registry joined first second equated = .ok used) :
    ∃ one other, first.findVariable equated.first = some one ∧
      second.findVariable equated.second = some other := by
  unfold pair at passed
  simp only at passed
  split at passed
  case h_2 => cases passed
  case h_1 one foundOne =>
  split at passed
  case h_2 => cases passed
  case h_1 other foundOther => exact ⟨one, other, foundOne, foundOther⟩

/-- Both ends of an accepted connection are found, and both variables of its pairs. -/
theorem connection_ok {strict : Bool} {model : Model} {joined : Connection}
    {used : List UsedVariable} (passed : connection strict registry model joined = .ok used) :
    ∃ first second, model.findComponent joined.first = some first ∧
      model.findComponent joined.second = some second ∧
      ∀ equated ∈ joined.pairs, ∃ one other, first.findVariable equated.first = some one ∧
        second.findVariable equated.second = some other := by
  unfold connection at passed
  split at passed
  case h_2 => cases passed
  case h_1 first foundFirst =>
  split at passed
  case h_2 => cases passed
  case h_1 second foundSecond =>
  obtain ⟨⟨⟩, -, passed⟩ := bind_eq_ok passed
  obtain ⟨⟨⟩, -, passed⟩ := bind_eq_ok passed
  refine ⟨first, second, foundFirst, foundSecond, fun equated membership => ?_⟩
  obtain ⟨_, passed⟩ := collect_ok passed equated membership
  exact pair_ok passed

/-! ## Faults of the steps -/

theorem componentNames_error {model : String} {seen words : List String}
    (failed : componentNames model seen words = .error fault) :
    fault = .unnamedComponent model ∨ ∃ word, fault = .duplicateComponent word := by
  induction words generalizing seen with
  | nil => cases failed
  | cons head rest ih =>
      rcases bind_eq_error failed with unnamed | ⟨_, -, failed⟩
      · exact .inl (require_error unnamed).2
      rcases bind_eq_error failed with repeated | ⟨_, -, failed⟩
      · exact .inr ⟨head, (require_error repeated).2⟩
      · exact ih failed

theorem names_error {model : Model} (failed : names model = .error fault) :
    fault = .unnamedModel ∨ fault = .unnamedComponent model.name ∨
      ∃ word, fault = .duplicateComponent word := by
  rcases bind_eq_error failed with unnamed | ⟨_, -, failed⟩
  · exact .inl (require_error unnamed).2
  · exact .inr (componentNames_error failed)

theorem unitsNames_error {seen words : List String} (failed : unitsNames seen words = .error fault) :
    (∃ word, fault = .builtinUnitsRedefined word) ∨ ∃ word, fault = .duplicateUnits word := by
  induction words generalizing seen with
  | nil => cases failed
  | cons head rest ih =>
      rcases bind_eq_error failed with redefined | ⟨_, -, failed⟩
      · exact .inl ⟨head, (require_error redefined).2⟩
      rcases bind_eq_error failed with repeated | ⟨_, -, failed⟩
      · exact .inr ⟨head, (require_error repeated).2⟩
      · exact ih failed

theorem mapError_error {α : Type} {result : Except Units.UnitsError α}
    (failed : result.mapError ModelFault.units = .error fault) :
    ∃ cause, result = .error cause ∧ fault = .units cause := by
  cases result with
  | error cause => exact ⟨cause, rfl, (Except.error.inj failed).symm⟩
  | ok value => cases failed

theorem mapError_ok {α : Type} {result : Except Units.UnitsError α} {value : α}
    (done : result.mapError ModelFault.units = .ok value) : result = .ok value := by
  cases result with
  | error cause => cases done
  | ok other => exact congrArg Except.ok (Except.ok.inj done)

theorem units_error {model : Model} (failed : units model = .error fault) :
    (∃ word, fault = .builtinUnitsRedefined word) ∨ (∃ word, fault = .duplicateUnits word) ∨
      ∃ cause, fault = .units cause := by
  rcases bind_eq_error failed with named | ⟨_, -, failed⟩
  · exact (unitsNames_error named).imp_right .inl
  · obtain ⟨cause, -, reported⟩ := mapError_error failed
    exact .inr (.inr ⟨cause, reported⟩)

theorem declarations_error {declaring : String} {seen : List String} {declared : List Variable}
    (failed : declarations registry declaring seen declared = .error fault) :
    fault = .unnamedVariable declaring ∨ (∃ word, fault = .duplicateVariable word declaring) ∨
      ∃ cause, fault = .units cause := by
  induction declared generalizing seen with
  | nil => cases failed
  | cons head rest ih =>
      rcases bind_eq_error failed with unnamed | ⟨_, -, failed⟩
      · exact .inl (require_error unnamed).2
      rcases bind_eq_error failed with repeated | ⟨_, -, failed⟩
      · exact .inr (.inl ⟨head.name, (require_error repeated).2⟩)
      rcases bind_eq_error failed with unknown | ⟨_, -, failed⟩
      · exact .inr (.inr ⟨_, (require_error unknown).2⟩)
      · exact ih failed

theorem initialValue_error {declaring : Component} {declared : Variable}
    (failed : initialValue declaring declared = .error fault) :
    ∃ reference, fault =
      .undefinedVariable reference declaring.name (.initialValue declared.name) := by
  unfold initialValue at failed
  split at failed
  next => cases failed
  next reference _ => exact ⟨reference, (require_error failed).2⟩

theorem component_error {declaring : Component}
    (failed : component registry declaring = .error fault) :
    (∃ source, fault = .unresolvedImport declaring.name source) ∨
      fault = .unnamedVariable declaring.name ∨
      (∃ word, fault = .duplicateVariable word declaring.name) ∨ (∃ cause, fault = .units cause) ∨
      ∃ reference word, fault =
        .undefinedVariable reference declaring.name (.initialValue word) := by
  unfold component at failed
  simp only at failed
  split at failed
  next source _ => exact .inl ⟨source, (Except.error.inj failed).symm⟩
  next =>
    rcases bind_eq_error failed with declared | ⟨_, -, failed⟩
    · rcases declarations_error declared with unnamed | repeated | unknown
      · exact .inr (.inl unnamed)
      · exact .inr (.inr (.inl repeated))
      · exact .inr (.inr (.inr (.inl unknown)))
    · obtain ⟨declared, -, failed⟩ := forEach_error failed
      obtain ⟨reference, reported⟩ := initialValue_error failed
      exact .inr (.inr (.inr (.inr ⟨reference, declared.name, reported⟩)))

theorem math_error {declaring : Component} (failed : math declaring = .error fault) :
    ∃ cause, fault = .invalidMath declaring.name cause := by
  unfold math at failed
  split at failed
  next => cases failed
  next =>
    split at failed
    next cause _ => exact ⟨cause, (Except.error.inj failed).symm⟩
    next => cases failed

theorem connectedInterface_error {declaring : Component} {declared : Variable}
    (failed : connectedInterface declaring declared = .error fault) :
    fault = .missingInterface declared.name declaring.name :=
  (require_error failed).2

theorem pair_error {strict : Bool} {joined : Connection} {first second : Component}
    {equated : VariablePair}
    (failed : pair strict registry joined first second equated = .error fault) :
    (∃ word declaring, fault =
        .undefinedVariable word declaring (.connection joined.first joined.second)) ∨
      (∃ cause, fault = .units cause) ∨
      (∃ one other, fault = .incompatibleConnection first.name one second.name other) ∨
      ∃ word declaring, fault = .missingInterface word declaring := by
  unfold pair at failed
  simp only at failed
  split at failed
  case h_2 => exact .inl ⟨_, _, (Except.error.inj failed).symm⟩
  case h_1 one _ =>
  split at failed
  case h_2 => exact .inl ⟨_, _, (Except.error.inj failed).symm⟩
  case h_1 other _ =>
  rcases bind_eq_error failed with unknown | ⟨compatible, -, failed⟩
  · obtain ⟨cause, -, reported⟩ := mapError_error unknown
    exact .inr (.inl ⟨cause, reported⟩)
  rcases bind_eq_error failed with apart | ⟨_, -, failed⟩
  · exact .inr (.inr (.inl ⟨_, _, (require_error apart).2⟩))
  split at failed
  case isFalse => cases failed
  case isTrue =>
    rcases bind_eq_error failed with hidden | ⟨_, -, failed⟩
    · exact .inr (.inr (.inr ⟨_, _, connectedInterface_error hidden⟩))
    rcases bind_eq_error failed with hidden | ⟨_, -, failed⟩
    · exact .inr (.inr (.inr ⟨_, _, connectedInterface_error hidden⟩))
    · cases failed

/-- A connection is refused for an end that names no component, or with both ends found for what
they are or for one of its pairs. -/
theorem connection_error {strict : Bool} {model : Model} {joined : Connection}
    (failed : connection strict registry model joined = .error fault) :
    (model.findComponent joined.first = none ∧
        fault = .undefinedComponent joined.first joined.first joined.second) ∨
      (model.findComponent joined.second = none ∧
        fault = .undefinedComponent joined.second joined.first joined.second) ∨
      ∃ first second, model.findComponent joined.first = some first ∧
        model.findComponent joined.second = some second ∧
        (fault = .selfConnection first.name ∨
          fault = .emptyConnection joined.first joined.second ∨
          ∃ equated ∈ joined.pairs,
            pair strict registry joined first second equated = .error fault) := by
  unfold connection at failed
  split at failed
  case h_2 missing =>
    refine .inl ⟨?_, (Except.error.inj failed).symm⟩
    cases found : model.findComponent joined.first with
    | none => rfl
    | some first => exact absurd found (missing first)
  case h_1 first foundFirst =>
  split at failed
  case h_2 missing =>
    refine .inr (.inl ⟨?_, (Except.error.inj failed).symm⟩)
    cases found : model.findComponent joined.second with
    | none => rfl
    | some second => exact absurd found (missing second)
  case h_1 second foundSecond =>
  refine .inr (.inr ⟨first, second, foundFirst, foundSecond, ?_⟩)
  rcases bind_eq_error failed with same | ⟨_, -, failed⟩
  · exact .inl (require_error same).2
  rcases bind_eq_error failed with unpaired | ⟨_, -, failed⟩
  · exact .inr (.inl (require_error unpaired).2)
  · exact .inr (.inr (collect_error failed))

theorem usage_error {used : List UsedVariable} {declaring : Component}
    (failed : usage used declaring = .error fault) :
    ∃ word, fault = .unusedVariable word declaring.name := by
  obtain ⟨declared, -, failed⟩ := forEach_error failed
  exact ⟨declared.name, (require_error failed).2⟩

/-- A component is reported as undefined only for a connection that has an end without one. -/
theorem exists_open_end {strict : Bool} {model : Model} {word first second : String}
    (failed : model.validate strict = .error (.undefinedComponent word first second)) :
    ∃ joined ∈ model.connections, model.findComponent joined.first = none ∨
      model.findComponent joined.second = none := by
  rcases steps_error failed with named | resolved | ⟨_, _, -, declared⟩ | ⟨_, -, read⟩ |
    ⟨_, joined, membership, connected⟩ | ⟨_, _, -, unused⟩
  · simpa using names_error named
  · simpa using units_error resolved
  · simpa using component_error declared
  · simpa using math_error read
  · refine ⟨joined, membership, ?_⟩
    rcases connection_error connected with ⟨missing, -⟩ | ⟨missing, -⟩ |
      ⟨_, _, -, -, same | unpaired | ⟨_, -, apart⟩⟩
    · exact .inl missing
    · exact .inr missing
    · cases same
    · cases unpaired
    · simpa using pair_error apart
  · simpa using usage_error unused

end Validation

end ComponentModel
