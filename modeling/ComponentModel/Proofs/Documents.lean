import ComponentModel.Model.Fault
import ComponentModel.Proofs.Json.Codecs

/-!
# Models in their documents

Every part of a model that has been read from a document is read again from the document that it is
written to. So a model that has been read is written to a text from which the same model is read.
-/

namespace ComponentModel

open Json

/-! ## Entries of records -/

theorem optionEntry_eq {α : Type} (key : String) (encode : α → Value) (value : Option α) :
    optionEntry key encode value = (value.map encode).toList.map fun value => (key, value) := by
  cases value <;> rfl

theorem listEntry_eq {α : Type} (key : String) (encode : α → Value) (items : List α) :
    listEntry key encode items = (listed encode items).toList.map fun value => (key, value) := by
  cases items <;> rfl

/-! ## Values that are no records -/

theorem Json.Value.fits_string (text : String) (bound : Nat) : (Value.string text).Fits bound :=
  ⟨by simp [Value.depth], by simp [Value.numbers]⟩

theorem fits_realValue (value : Float) (bound : Nat) : (realValue value).Fits bound :=
  ⟨by simp [realValue, Value.depth], by simp [realValue, Value.numbers]⟩

theorem isCodec_string : IsCodec Value.asString? Value.string where
  again _ := rfl
  fits {_ text} _ := Value.fits_string text _
  present _ := Value.noConfusion

theorem isCodec_real : IsCodec Value.asFloat? realValue where
  again _ := rfl
  fits {_ value} _ := fits_realValue value _
  present _ := Value.noConfusion

theorem UnitPrefix.isCodec : IsCodec UnitPrefix.ofValue? UnitPrefix.toValue where
  again {value read} found := by
    unfold UnitPrefix.ofValue? at found
    split at found
    case h_1 exponent =>
      split at found
      case isTrue small =>
        obtain rfl := Option.some.inj found
        rw [UnitPrefix.toValue, UnitPrefix.ofValue?, if_pos small]
      case isFalse => cases found
    case h_2 word =>
      obtain rfl := Option.some.inj found
      rfl
    case h_3 => cases found
  fits {value read} found := by
    unfold UnitPrefix.ofValue? at found
    split at found
    case h_1 exponent =>
      split at found
      case isTrue small =>
        obtain rfl := Option.some.inj found
        exact ⟨by simp [UnitPrefix.toValue, Value.depth], by
          simpa [UnitPrefix.toValue, Value.numbers] using small⟩
      case isFalse => cases found
    case h_2 word =>
      obtain rfl := Option.some.inj found
      exact Value.fits_string word _
    case h_3 => cases found
  present read := by cases read <;> exact Value.noConfusion

theorem Interface.ofWord?_word (face : Interface) : ofWord? face.word = some face := by
  cases face <;> decide

theorem Interface.isCodec : IsCodec Interface.ofValue? Interface.toValue where
  again {_ face} _ := face.ofWord?_word
  fits {_ face} _ := Value.fits_string face.word _
  present _ := Value.noConfusion

theorem InitialValue.isCodec : IsCodec InitialValue.ofValue? InitialValue.toValue where
  again {_ read} _ := by cases read <;> rfl
  fits {_ read} _ := by
    cases read with
    | number value => exact fits_realValue value _
    | text written => exact Value.fits_string written _
  present read := by cases read <;> exact Value.noConfusion

/-! ## Records -/

theorem UnitTerm.isCodec : IsCodec UnitTerm.ofValue? UnitTerm.toValue := by
  refine .record (fun term => [
      ("reference", some (.string term.reference)),
      ("prefix", term.siPrefix.map UnitPrefix.toValue),
      ("exponent", term.exponent.map realValue),
      ("multiplier", term.multiplier.map realValue)])
    (by decide) (fun _ => rfl) (fun _ => rfl)
    (fun term => by simp [UnitTerm.toValue, entriesOf, optionEntry_eq]) ?_
  intro depth fields term bounded found
  simp only [Option.bind_eq_bind, Option.pure_def, Option.bind_eq_some_iff,
    Option.some.injEq] at found
  obtain ⟨reference, isReference, siPrefix, isPrefix, exponent, isExponent, multiplier,
    isMultiplier, rfl⟩ := found
  exact .bind (isCodec_string.required bounded isReference) <|
    .bind (UnitPrefix.isCodec.optional bounded isPrefix) <|
    .bind (isCodec_real.optional bounded isExponent) <|
    .bind (isCodec_real.optional bounded isMultiplier) <| .pure _

theorem UnitsDefinition.isCodec : IsCodec UnitsDefinition.ofValue? UnitsDefinition.toValue := by
  refine .record (fun definition => [
      ("name", some (.string definition.name)),
      ("units", listed UnitTerm.toValue definition.units)])
    (by decide) (fun _ => rfl) (fun _ => rfl)
    (fun definition => by simp [UnitsDefinition.toValue, entriesOf, listEntry_eq]) ?_
  intro depth fields definition bounded found
  simp only [Option.bind_eq_bind, Option.pure_def, Option.bind_eq_some_iff,
    Option.some.injEq] at found
  obtain ⟨name, isName, units, isUnits, rfl⟩ := found
  exact .bind (isCodec_string.required bounded isName) <|
    .bind (UnitTerm.isCodec.list bounded isUnits) <| .pure _

theorem Variable.isCodec : IsCodec Variable.ofValue? Variable.toValue := by
  refine .record (fun declared => [
      ("name", some (.string declared.name)),
      ("units", some (.string declared.units)),
      ("initial_value", declared.initialValue.map InitialValue.toValue),
      ("interface", declared.face.map Interface.toValue)])
    (by decide) (fun _ => rfl) (fun _ => rfl)
    (fun declared => by simp [Variable.toValue, entriesOf, optionEntry_eq]) ?_
  intro depth fields declared bounded found
  simp only [Option.bind_eq_bind, Option.pure_def, Option.bind_eq_some_iff,
    Option.some.injEq] at found
  obtain ⟨name, isName, units, isUnits, initialValue, isInitial, face, isFace, rfl⟩ := found
  exact .bind (isCodec_string.required bounded isName) <|
    .bind (isCodec_string.required bounded isUnits) <|
    .bind (InitialValue.isCodec.optional bounded isInitial) <|
    .bind (Interface.isCodec.optional bounded isFace) <| .pure _

theorem ImportSource.isCodec : IsCodec ImportSource.ofValue? ImportSource.toValue := by
  refine .record (fun source => [
      ("url", some (.string source.url)),
      ("component", some (.string source.component))])
    (by decide) (fun _ => rfl) (fun _ => rfl) (fun _ => rfl) ?_
  intro depth fields source bounded found
  simp only [Option.bind_eq_bind, Option.pure_def, Option.bind_eq_some_iff,
    Option.some.injEq] at found
  obtain ⟨url, isUrl, component, isComponent, rfl⟩ := found
  exact .bind (isCodec_string.required bounded isUrl) <|
    .bind (isCodec_string.required bounded isComponent) <| .pure _

theorem VariablePair.isCodec : IsCodec VariablePair.ofValue? VariablePair.toValue := by
  refine .record (fun pair => [
      ("variable_1", some (.string pair.first)),
      ("variable_2", some (.string pair.second))])
    (by decide) (fun _ => rfl) (fun _ => rfl) (fun _ => rfl) ?_
  intro depth fields pair bounded found
  simp only [Option.bind_eq_bind, Option.pure_def, Option.bind_eq_some_iff,
    Option.some.injEq] at found
  obtain ⟨first, isFirst, second, isSecond, rfl⟩ := found
  exact .bind (isCodec_string.required bounded isFirst) <|
    .bind (isCodec_string.required bounded isSecond) <| .pure _

/-- The pairs of a connection are written even if there are none. -/
theorem Connection.isCodec : IsCodec Connection.ofValue? Connection.toValue := by
  refine .record (fun connection => [
      ("component_1", some (.string connection.first)),
      ("component_2", some (.string connection.second)),
      ("variables", some (.array (connection.pairs.map VariablePair.toValue)))])
    (by decide) (fun _ => rfl) (fun _ => rfl) (fun _ => rfl) ?_
  intro depth fields connection bounded found
  simp only [Option.bind_eq_bind, Option.pure_def, Option.bind_eq_some_iff,
    Option.some.injEq] at found
  obtain ⟨first, isFirst, second, isSecond, pairs, isPairs, rfl⟩ := found
  exact .bind (isCodec_string.required bounded isFirst) <|
    .bind (isCodec_string.required bounded isSecond) <|
    .bind (VariablePair.isCodec.listOf.required bounded isPairs) <| .pure _

/-! ## Components inside components -/

namespace Component

/-- The fields of a written component. -/
def slots (component : Component) : List Slot :=
  [("name", some (.string component.name)),
    ("variables", listed Variable.toValue component.declarations),
    ("math", component.math.map Value.string),
    ("components", listed Component.toValue component.components),
    ("import", component.source.map ImportSource.toValue)]

theorem toValues_eq_map (components : List Component) :
    toValues components = components.map Component.toValue := by
  induction components with
  | nil => rfl
  | cons component components ih => rw [toValues, ih, List.map_cons]

theorem toValue_eq (component : Component) :
    component.toValue = .object (entriesOf component.slots) := by
  obtain ⟨name, declarations, math, components, source⟩ := component
  cases components <;>
    simp [Component.toValue, slots, entriesOf, optionEntry_eq, listEntry_eq, listed,
      toValues_eq_map]

/-- Whatever the number of levels that are read, by induction on it. -/
theorem isCodec_within (depth : Nat) :
    IsCodec (ofValueWithin? depth) Component.toValue := by
  induction depth with
  | zero => exact ⟨by simp [ofValueWithin?], by simp [ofValueWithin?], by simp [toValue_eq]⟩
  | succ depth ih =>
      refine .record slots (by decide) (fun _ => rfl) (fun _ => rfl) toValue_eq ?_
      intro bound fields component bounded found
      simp only [Option.bind_eq_bind, Option.pure_def, Option.bind_eq_some_iff,
        Option.some.injEq] at found
      obtain ⟨name, isName, declarations, areDeclarations, math, isMath, components,
        areComponents, source, isSource, rfl⟩ := found
      exact .bind (isCodec_string.required bounded isName) <|
        .bind (Variable.isCodec.list bounded areDeclarations) <|
        .bind (isCodec_string.optional bounded isMath) <|
        .bind (ih.list bounded areComponents) <|
        .bind (ImportSource.isCodec.optional bounded isSource) <| .pure _

/-- Only the reading of what is inside a value depends on the number of levels. -/
theorem ofValueWithin?_congr {value : Value} {depth other : Nat}
    (same : ∀ {inner : Value}, inner.depth < value.depth →
      ofValueWithin? depth inner = ofValueWithin? other inner) :
    ofValueWithin? (depth + 1) value = ofValueWithin? (other + 1) value := by
  rw [ofValueWithin?, ofValueWithin?]
  refine Option.bind_congr fun fields read => ?_
  obtain ⟨bound, deeper, bounded⟩ := Fields.bounded_of_ofValue? read
  have inside : fields.list 3 "components" (Json.listOf (ofValueWithin? depth)) =
      fields.list 3 "components" (Json.listOf (ofValueWithin? other)) := by
    unfold Fields.list
    split
    case h_1 => rfl
    case h_2 written got =>
      refine Json.listOf_congr fun {item} shallow => same ?_
      have := bounded got
      omega
  simp only [inside]

/-- More levels than a value has make no difference. -/
theorem ofValueWithin?_succ {value : Value} {depth : Nat} (enough : value.depth ≤ depth) :
    ofValueWithin? (depth + 1) value = ofValueWithin? depth value := by
  induction depth generalizing value with
  | zero =>
      rw [ofValueWithin?, ofValueWithin?, Option.bind_eq_bind, Option.bind_eq_none_iff]
      intro fields read
      obtain ⟨bound, deeper, -⟩ := Fields.bounded_of_ofValue? read
      omega
  | succ depth ih => exact ofValueWithin?_congr fun {inner} inside => ih (by omega)

theorem ofValueWithin?_eq {value : Value} {depth : Nat} (enough : value.depth ≤ depth) :
    ofValueWithin? depth value = ofValue? value := by
  induction depth, enough using Nat.le_induction with
  | base => rfl
  | succ depth enough ih => rw [ofValueWithin?_succ enough, ih]

theorem isCodec : IsCodec Component.ofValue? Component.toValue where
  again {value component} found := by
    have again := (isCodec_within value.depth).again found
    rwa [ofValueWithin?_eq ((isCodec_within value.depth).fits found).depth] at again
  fits {value component} found := (isCodec_within value.depth).fits found
  present component := by simp [toValue_eq]

end Component

/-! ## Models -/

theorem Model.isCodec : IsCodec Model.ofValue? Model.toValue := by
  refine .record (fun model => [
      ("schema", some (.string model.schema)),
      ("name", some (.string model.name)),
      ("units", listed UnitsDefinition.toValue model.units),
      ("components", listed Component.toValue model.components),
      ("connections", listed Connection.toValue model.connections)])
    (by decide) (fun _ => rfl) (fun _ => rfl)
    (fun model => by simp [Model.toValue, entriesOf, listEntry_eq]) ?_
  intro depth fields model bounded found
  simp only [Option.bind_eq_bind, Option.pure_def, Option.bind_eq_some_iff,
    Option.some.injEq] at found
  obtain ⟨schema, isSchema, name, isName, units, areUnits, components, areComponents,
    connections, areConnections, rfl⟩ := found
  exact .bind (isCodec_string.required bounded isSchema) <|
    .bind (isCodec_string.required bounded isName) <|
    .bind (UnitsDefinition.isCodec.list bounded areUnits) <|
    .bind (Component.isCodec.list bounded areComponents) <|
    .bind (Connection.isCodec.list bounded areConnections) <| .pure _

namespace Model

theorem checkSchema_eq_ok {model other : Model} :
    model.checkSchema = .ok other ↔ supportedSchemas.contains model.schema ∧ model = other := by
  unfold checkSchema
  split <;> simp_all

/-- A model is read from a text that is a document of a model of a supported schema. -/
theorem read_eq_ok {text : String} {model : Model} :
    Model.read text = .ok model ↔ ∃ value, Value.read? text = some value ∧
      Model.ofValue? value = some model ∧ supportedSchemas.contains model.schema := by
  unfold Model.read Model.fromValue
  cases Value.read? text with
  | none => simp
  | some value =>
      cases found : Model.ofValue? value with
      | none => simp [found]
      | some other =>
          simp only [found, checkSchema_eq_ok, Option.some.injEq, exists_eq_left']
          constructor
          · rintro ⟨supported, rfl⟩
            exact ⟨rfl, supported⟩
          · rintro ⟨rfl, supported⟩
            exact ⟨supported, rfl⟩

/-- A model that has been read is read again from its own document: from the text that it is written
to, the same model is read. Of the doubles in the document nothing else is needed than that each one
is read back from the text it is written to. -/
theorem read_toJson {text : String} {model : Model} (read : Model.read text = .ok model)
    (doubles : ∀ value : Float, .real value ∈ model.toValue.numbers →
      Value.read? (Number.real value).write = some (.number (.real value))) :
    Model.read model.toJson = .ok model := by
  obtain ⟨value, isValue, found, supported⟩ := read_eq_ok.mp read
  have fits := Model.isCodec.fits found
  have survive : ∀ number ∈ model.toValue.numbers, number.Survives := by
    rintro (integer | value) isNumber
    · exact Number.survives_integer (fits.whole isNumber)
    · exact Number.survives_of_read (doubles value isNumber)
  exact read_eq_ok.mpr ⟨model.toValue,
    Value.read?_pretty survive (fits.depth.trans (Value.depth_le_of_read isValue)),
    Model.isCodec.again found, supported⟩

end Model

/-- A document with keys out of order and with records written as arrays of their fields. -/
def packedDocument : Value :=
  .object [("name", .string "a \"cell\"\n"), ("schema", .string "1.0"),
    ("units", .array [.object [("units", .array [
        .object [("prefix", .number (.integer (-3))), ("reference", .string "volt")],
        .array [.string "second", .string "milli", .null, .null]]),
      ("name", .string "mV")]]),
    ("components", .array [.array [.string "cell",
      .array [.object [("name", .string "v"), ("units", .string "mV"),
        ("initial_value", .string "1e3"), ("interface", .object [("public", .null)])],
        .array [.string "rest", .string "mV", .number (.real 1.5), .null]],
      .null,
      .array [.object [("name", .string "gate"),
        ("import", .object [("component", .string "m"), ("url", .string "gates")])]],
      .null]]),
    ("connections", .array [.array [.string "cell", .string "gate", .array []]])]

/-- The model of that document. -/
def packedModel : Model where
  schema := "1.0"
  name := "a \"cell\"\n"
  units := [⟨"mV", [⟨"volt", some (.power (-3)), none, none⟩,
    ⟨"second", some (.name "milli"), none, none⟩]⟩]
  components := [⟨"cell", [⟨"v", "mV", some (.text "1e3"), some .public⟩,
      ⟨"rest", "mV", some (.number 1.5), none⟩], none,
    [⟨"gate", [], none, [], some ⟨"gates", "m"⟩⟩], none⟩]
  connections := [⟨"cell", "gate", []⟩]

/-- The arrays of fields, the interface as an object, the double and the numeric text survive as
what they denote. -/
theorem packedModel_rereads :
    Model.read packedDocument.pretty = .ok packedModel ∧
      Model.read packedModel.toJson = .ok packedModel := by
  have document : packedDocument.numbers = [.integer (-3), .real 1.5] := rfl
  have written : packedModel.toValue.numbers = [.integer (-3), .real 1.5] := rfl
  have double : Value.read? (Number.real 1.5).write = some (.number (.real 1.5)) := by
    have isText : (Number.real 1.5).write = "1.5" := by decide +kernel
    rw [isText]
    rfl
  have read : Model.read packedDocument.pretty = .ok packedModel := by
    refine Model.read_eq_ok.mpr ⟨packedDocument, Value.read?_pretty ?_ (by decide), rfl, rfl⟩
    rw [document, List.forall_mem_cons, List.forall_mem_singleton]
    exact ⟨Number.survives_integer rfl, Number.survives_of_read double⟩
  refine ⟨read, Model.read_toJson read fun value isNumber => ?_⟩
  obtain rfl : value = 1.5 := by simpa [written] using isNumber
  exact double

end ComponentModel
