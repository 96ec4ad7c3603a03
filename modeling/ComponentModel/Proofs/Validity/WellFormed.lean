import ComponentModel.Proofs.Markup.Nesting
import ComponentModel.Proofs.Validity.Usage

/-!
# Valid models

A model is valid if its names, units, components and connections are. A validation accepts exactly
the valid models, as they are; for any other model it reports the first condition that is violated.
-/

namespace ComponentModel

/-- A component declares named variables that differ, in units that are known, initial values that
are numbers or variables of the component, and math that can be read. -/
structure Component.IsValidIn (model : Model) (declaring : Component) : Prop where
  written : declaring.source = none
  variablesNamed : ∀ declared ∈ declaring.declarations, ¬Text.blank declared.name
  variablesDistinct : (declaring.declarations.map Variable.name).Nodup
  unitsKnown : ∀ declared ∈ declaring.declarations,
    declared.units ∈ model.units.map UnitsDefinition.name ∨ Units.isBuiltin declared.units
  initialsFound : ∀ declared ∈ declaring.declarations, ∀ text,
    declared.initialValue = some (.text text) → Decimal.read? (Text.trim text) = none →
      Text.trim text ∈ declaring.declarations.map Variable.name
  mathRead : ∀ text, declaring.math = some text →
    ∃ roots, Markup.readMath text = .ok roots ∧ ∀ root ∈ roots, root.name = "math"

/-- A connection joins variables of two components, and any two that it equates measure the same
dimension. -/
structure Connection.IsValidIn (model : Model) (joined : Connection) : Prop where
  firstFound : joined.first ∈ model.preorder.map Component.name
  secondFound : joined.second ∈ model.preorder.map Component.name
  differ : joined.first ≠ joined.second
  paired : joined.pairs ≠ []
  alike : ∀ equated ∈ joined.pairs, ∃ one other,
    model.findVariable joined.first equated.first = some one ∧
      model.findVariable joined.second equated.second = some other ∧
      model.SameDimensions one.units other.units

/-- The variables that a connection joins have an interface. -/
def Connection.ShowsEnds (model : Model) (joined : Connection) : Prop :=
  ∀ equated ∈ joined.pairs, ∀ declared,
    model.findVariable joined.first equated.first = some declared ∨
      model.findVariable joined.second equated.second = some declared → declared.IsShown

/-- A model without a fault. -/
structure Model.IsValid (model : Model) : Prop where
  named : ¬Text.blank model.name
  componentsNamed : ∀ declaring ∈ model.preorder, ¬Text.blank declaring.name
  componentsDistinct : (model.preorder.map Component.name).Nodup
  unitsNew : ∀ definition ∈ model.units, ¬Units.isBuiltin definition.name
  unitsDistinct : (model.units.map UnitsDefinition.name).Nodup
  unitsResolved : Units.WellDefined model.units
  components : ∀ declaring ∈ model.preorder, declaring.IsValidIn model
  connections : ∀ joined ∈ model.connections, joined.IsValidIn model

/-- What the strict check asks of a model without a fault. -/
structure Model.IsTidy (model : Model) : Prop where
  shown : ∀ joined ∈ model.connections, joined.ShowsEnds model
  used : ∀ declaring ∈ model.preorder, ∀ declared ∈ declaring.declarations,
    model.Uses declaring declared.name

/-! ## Conditions that hold -/

namespace Condition

variable {model : Model} {strict : Bool}

/-- Each name in a list is proper and none of those in front of it if all are proper and differ. -/
theorem forall_each_iff {α : Type} {ask : List α → α → List Condition} (nameOf : α → String)
    (IsProper : α → Prop)
    (asks : ∀ earlier value, (∀ condition ∈ ask earlier value, condition.Holds model) ↔
      IsProper value ∧ nameOf value ∉ earlier.map nameOf)
    {earlier values : List α} (nodup : (earlier.map nameOf).Nodup) :
    (∀ condition ∈ each ask earlier values, condition.Holds model) ↔
      (∀ value ∈ values, IsProper value) ∧ ((earlier ++ values).map nameOf).Nodup := by
  induction values generalizing earlier with
  | nil => simpa [each] using nodup
  | cons value rest ih =>
      rw [each, List.forall_mem_append, asks, List.forall_mem_cons,
        List.append_cons earlier value rest]
      have snoc : ((earlier ++ [value]).map nameOf).Nodup ↔ nameOf value ∉ earlier.map nameOf := by
        rw [List.map_append, List.map_singleton, List.nodup_append]
        simp [nodup]
      constructor
      · rintro ⟨⟨proper, fresh⟩, later⟩
        obtain ⟨all, distinct⟩ := (ih (snoc.mpr fresh)).mp later
        exact ⟨⟨proper, all⟩, distinct⟩
      · rintro ⟨⟨proper, all⟩, distinct⟩
        have fresh := snoc.mp (distinct.sublist ((List.sublist_append_left _ rest).map nameOf))
        exact ⟨⟨proper, fresh⟩, (ih (snoc.mpr fresh)).mpr ⟨all, distinct⟩⟩

theorem forall_ofNames_iff : (∀ condition ∈ ofNames model, condition.Holds model) ↔
    ¬Text.blank model.name ∧ (∀ declaring ∈ model.preorder, ¬Text.blank declaring.name) ∧
      (model.preorder.map Component.name).Nodup := by
  rw [ofNames, List.forall_mem_cons, forall_each_iff id
    (fun name => ¬Text.blank name) (by simp [ofComponentName, Holds]) (by simp)]
  simp [Holds]

theorem forall_ofUnits_iff : (∀ condition ∈ ofUnits model, condition.Holds model) ↔
    ((∀ definition ∈ model.units, ¬Units.isBuiltin definition.name) ∧
      (model.units.map UnitsDefinition.name).Nodup) ∧ Units.WellDefined model.units := by
  rw [ofUnits, List.forall_mem_append, List.forall_mem_singleton, forall_each_iff id
    (fun name => ¬Units.isBuiltin name) (by simp [ofUnitsName, Holds]) (by simp)]
  simp [Holds]

theorem initialReference_eq_some_iff {declared : Variable} {name : String} :
    Validation.initialReference declared = some name ↔
      ∃ text, declared.initialValue = some (.text text) ∧ Decimal.read? (Text.trim text) = none ∧
        Text.trim text = name := by
  unfold Validation.initialReference InitialValue.variableName
  rcases declared.initialValue with - | (value | text)
  · simp
  · simp
  · cases read : Decimal.read? (Text.trim text) <;> simp [read]

theorem forall_ofComponent_iff {declaring : Component} :
    (∀ condition ∈ ofComponent declaring, condition.Holds model) ↔
      declaring.source = none ∧
      ((∀ declared ∈ declaring.declarations,
        ¬Text.blank declared.name ∧ (Condition.unitsKnown declared).Holds model) ∧
      (declaring.declarations.map Variable.name).Nodup) ∧
      ∀ declared ∈ declaring.declarations, (Condition.initialFound declaring declared).Holds model := by
  rw [ofComponent, List.forall_mem_cons, List.forall_mem_append, List.forall_mem_map,
    forall_each_iff Variable.name (fun declared => ¬Text.blank declared.name ∧
      (Condition.unitsKnown declared).Holds model)
      (by simp [ofVariable, Holds, and_assoc, and_comm]) (by simp)]
  rfl

theorem forall_ofPair_iff {joined : Connection} {equated : VariablePair} :
    (∀ condition ∈ ofPair strict joined equated, condition.Holds model) ↔
      (Condition.sameDimensions joined equated).Holds model ∧
        (strict = true → ∀ declared, model.findVariable joined.first equated.first = some declared ∨
          model.findVariable joined.second equated.second = some declared → declared.IsShown) := by
  -- Variables whose units are compared are declared.
  have declared : (Condition.sameDimensions joined equated).Holds model →
      (model.findVariable joined.first equated.first).isSome ∧
        (model.findVariable joined.second equated.second).isSome := by
    rintro ⟨one, other, foundOne, foundOther, -⟩
    exact ⟨Option.isSome_of_eq_some foundOne, Option.isSome_of_eq_some foundOther⟩
  rw [ofPair, List.forall_mem_append]
  refine and_congr ⟨fun all => all _ (by simp), fun holds => ?_⟩ ?_
  · simp only [List.forall_mem_cons]
    exact ⟨(declared holds).1, (declared holds).2, holds, List.forall_mem_nil _⟩
  · cases strict with
    | false => simp
    | true => simp [Holds, or_imp, forall_and]

theorem forall_ofConnection_iff {joined : Connection} :
    (∀ condition ∈ ofConnection strict joined, condition.Holds model) ↔
      joined.IsValidIn model ∧ (strict = true → joined.ShowsEnds model) := by
  rw [ofConnection, List.forall_mem_append, List.forall_mem_flatMap]
  simp only [forall_ofPair_iff]
  constructor
  · rintro ⟨ends, pairs⟩
    simp only [List.forall_mem_cons, Holds] at ends
    obtain ⟨first, second, differ, paired, -⟩ := ends
    exact ⟨⟨first, second, differ, paired, fun equated member => (pairs equated member).1⟩,
      fun isStrict equated member => (pairs equated member).2 isStrict⟩
  · rintro ⟨valid, shows⟩
    refine ⟨?_, fun equated member =>
      ⟨valid.alike equated member, fun isStrict => shows isStrict equated member⟩⟩
    simp only [List.forall_mem_cons]
    exact ⟨valid.firstFound, valid.secondFound, valid.differ, valid.paired, List.forall_mem_nil _⟩

end Condition

namespace Model

variable {model : Model} {strict : Bool}

theorem isValidIn_iff {declaring : Component} : declaring.IsValidIn model ↔
    (∀ condition ∈ Condition.ofComponent declaring, condition.Holds model) ∧
      (Condition.mathRead declaring).Holds model := by
  rw [Condition.forall_ofComponent_iff]
  constructor
  · intro valid
    refine ⟨⟨valid.written, ⟨fun declared member => ⟨valid.variablesNamed declared member,
      valid.unitsKnown declared member⟩, valid.variablesDistinct⟩, fun declared member name refers =>
      ?_⟩, fun text written => ?_⟩
    · obtain ⟨text, initial, notRead, rfl⟩ := Condition.initialReference_eq_some_iff.mp refers
      exact valid.initialsFound declared member text initial notRead
    · obtain ⟨roots, read, -⟩ := valid.mathRead text written
      exact ⟨roots, read⟩
  · rintro ⟨⟨written, ⟨proper, distinct⟩, initials⟩, readable⟩
    refine ⟨written, fun declared member => (proper declared member).1, distinct,
      fun declared member => (proper declared member).2, fun declared member text initial notRead =>
      initials declared member _ (Condition.initialReference_eq_some_iff.mpr
        ⟨text, initial, notRead, rfl⟩), fun text written => ?_⟩
    obtain ⟨roots, read⟩ := readable text written
    exact ⟨roots, read, Markup.isMath_of_readMath read⟩

/-- All conditions hold exactly if the model is valid, and for the strict check tidy. -/
theorem forall_conditions_iff :
    (∀ condition ∈ model.conditions strict, condition.Holds model) ↔
      model.IsValid ∧ (strict = true → model.IsTidy) := by
  have usage_iff : (∀ condition ∈ if strict then model.preorder.flatMap Condition.ofUsage else [],
      condition.Holds model) ↔ (strict = true → ∀ declaring ∈ model.preorder,
        ∀ declared ∈ declaring.declarations, model.Uses declaring declared.name) := by
    cases strict with
    | false => simp
    | true =>
        rw [if_pos rfl, List.forall_mem_flatMap]
        simp only [Condition.ofUsage, List.forall_mem_map, Condition.Holds, forall_const]
  rw [conditions, List.forall_mem_append, List.forall_mem_append, List.forall_mem_append,
    List.forall_mem_append, List.forall_mem_append, List.forall_mem_flatMap,
    List.forall_mem_flatMap, List.forall_mem_flatMap, usage_iff, Condition.forall_ofNames_iff,
    Condition.forall_ofUnits_iff]
  simp only [Condition.forall_ofConnection_iff, List.forall_mem_singleton]
  constructor
  · rintro ⟨⟨named, componentsNamed, componentsDistinct⟩, ⟨⟨unitsNew, unitsDistinct⟩,
      unitsResolved⟩, components, read, connections, used⟩
    exact ⟨⟨named, componentsNamed, componentsDistinct, unitsNew, unitsDistinct, unitsResolved,
      fun declaring within => isValidIn_iff.mpr ⟨components declaring within, read declaring within⟩,
      fun joined member => (connections joined member).1⟩,
      fun isStrict => ⟨fun joined member => (connections joined member).2 isStrict, used isStrict⟩⟩
  · rintro ⟨valid, tidy⟩
    exact ⟨⟨valid.named, valid.componentsNamed, valid.componentsDistinct⟩,
      ⟨⟨valid.unitsNew, valid.unitsDistinct⟩, valid.unitsResolved⟩,
      fun declaring within => (isValidIn_iff.mp (valid.components declaring within)).1,
      fun declaring within => (isValidIn_iff.mp (valid.components declaring within)).2,
      fun joined member => ⟨valid.connections joined member, fun isStrict =>
        (tidy isStrict).shown joined member⟩, fun isStrict => (tidy isStrict).used⟩

/-- A validation checks the conditions in their order. -/
theorem decides_validate : Decides model (model.conditions strict) (model.validate strict) := by
  refine Validation.decides_names.bind fun _ _ named => ?_
  refine Validation.decides_units.bind fun registry resolved _ => ?_
  refine (Decides.forEach fun declaring _ => Validation.decides_component resolved declaring).bind
    fun _ _ declared => ?_
  refine (Decides.collect fun declaring _ => Validation.decides_math declaring).bind
    fun inMath read _ => ?_
  have known : ∀ declaring ∈ model.preorder, ∀ own ∈ declaring.declarations,
      (Condition.unitsKnown own).Holds model := fun declaring within own member =>
    ((Condition.forall_ofComponent_iff.mp (List.forall_mem_flatMap.mp declared declaring within)
      ).2.1.1 own member).2
  refine (Decides.collect fun joined _ =>
    Validation.decides_connection resolved known joined).bind fun connected joined _ => ?_
  have distinct := (Condition.forall_ofNames_iff.mp named).2.2
  cases strict with
  | false => exact .pass ()
  | true =>
      exact .forEach fun declaring within => Validation.decides_usage fun name =>
        Validation.recorded_iff distinct read joined within

theorem accepted_iff : model.validate false = .ok () ↔ model.IsValid := by
  have decides : Decides model (model.conditions false) (model.validate false) := decides_validate
  have all := decides.ok_iff.trans forall_conditions_iff
  refine ⟨fun passed => (all.mp ⟨(), passed⟩).1, fun valid => ?_⟩
  obtain ⟨⟨⟩, passed⟩ := all.mpr ⟨valid, nofun⟩
  exact passed

theorem validated_eq_error_iff {fault : ModelFault} :
    model.validated strict = .error fault ↔ model.validate strict = .error fault := by
  unfold validated
  split
  next passed => simp [passed]
  next other failed => simp [failed]

theorem validated_eq_ok_iff {valid : ValidModel} :
    model.validated strict = .ok valid ↔ model.validate strict = .ok () ∧ valid.model = model := by
  obtain ⟨other, accepted⟩ := valid
  unfold validated
  split
  next passed => simp [passed, eq_comm]
  next fault failed => simp [failed]

/-- A validation hands on a model as it is exactly if the model is valid. Otherwise a condition is
violated, and the first such condition is reported. -/
theorem validated_isValid_or_first_violated (model : Model) :
    ((∃ valid, model.validated false = .ok valid ∧ valid.model = model) ↔ model.IsValid) ∧
      ((∃ fault, FirstViolated model (model.conditions false) fault) ↔ ¬model.IsValid) ∧
      ∀ fault, model.validated false = .error fault ↔
        FirstViolated model (model.conditions false) fault := by
  have decides : Decides model (model.conditions false) (model.validate false) := decides_validate
  refine ⟨?_, ?_, fun fault => validated_eq_error_iff.trans decides.error_iff⟩
  · simp only [validated_eq_ok_iff, accepted_iff]
    exact ⟨fun ⟨_, ⟨valid, _⟩, _⟩ => valid, fun valid =>
      ⟨⟨model, false, accepted_iff.mpr valid⟩, ⟨valid, rfl⟩, rfl⟩⟩
  · rw [← accepted_iff]
    simp only [← decides.error_iff]
    cases model.validate false <;> simp

end Model

end ComponentModel
