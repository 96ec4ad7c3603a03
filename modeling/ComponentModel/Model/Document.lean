import ComponentModel.Json.Fields
import ComponentModel.Json.Reader
import ComponentModel.Json.Writer
import ComponentModel.Model.Basic

/-!
# Models in documents

Reading and writing of models as document values. Every record is described once for reading
(`ofValue?`) and once for writing (`toValue`): fields stand in a fixed order, absent options and
empty lists are left out. Only the list of pairs of a connection is always written.
-/

namespace ComponentModel

open Json (Value Fields Number)

/-- The entry of an option, if it is there. -/
def optionEntry {α : Type} (key : String) (encode : α → Value) : Option α → List (String × Value)
  | none => []
  | some value => [(key, encode value)]

/-- The entry of a list, unless it is empty. -/
def listEntry {α : Type} (key : String) (encode : α → Value) : List α → List (String × Value)
  | [] => []
  | items => [(key, .array (items.map encode))]

/-- A double as a document value. -/
def realValue (value : Float) : Value :=
  .number (.real value)

/-- A power of ten is written as a whole number of thirty-two bits, a name as a string. -/
def UnitPrefix.ofValue? : Value → Option UnitPrefix
  | .number (.integer exponent) =>
      if Decimal.fitsThirtyTwoBits exponent then some (.power exponent) else none
  | .string word => some (.name word)
  | _ => none

/-- The document value of a prefix. -/
def UnitPrefix.toValue : UnitPrefix → Value
  | .power exponent => .number (.integer exponent)
  | .name word => .string word

/-- Read a term of a units definition. -/
def UnitTerm.ofValue? (value : Value) : Option UnitTerm := do
  let fields ← Fields.ofValue? ["reference", "prefix", "exponent", "multiplier"] value
  return {
    reference := ← fields.required 0 "reference" Value.asString?
    siPrefix := ← fields.optional 1 "prefix" UnitPrefix.ofValue?
    exponent := ← fields.optional 2 "exponent" Value.asFloat?
    multiplier := ← fields.optional 3 "multiplier" Value.asFloat? }

/-- The document value of a term. -/
def UnitTerm.toValue (term : UnitTerm) : Value :=
  .object (("reference", .string term.reference) ::
    optionEntry "prefix" UnitPrefix.toValue term.siPrefix ++
    optionEntry "exponent" realValue term.exponent ++
    optionEntry "multiplier" realValue term.multiplier)

/-- Read a units definition. -/
def UnitsDefinition.ofValue? (value : Value) : Option UnitsDefinition := do
  let fields ← Fields.ofValue? ["name", "units"] value
  return {
    name := ← fields.required 0 "name" Value.asString?
    units := ← fields.list 1 "units" (Json.listOf UnitTerm.ofValue?) }

/-- The document value of a units definition. -/
def UnitsDefinition.toValue (definition : UnitsDefinition) : Value :=
  .object (("name", .string definition.name) ::
    listEntry "units" UnitTerm.toValue definition.units)

/-- An interface is written as its word, or as an object with the word as its only key. -/
def Interface.ofValue? : Value → Option Interface
  | .string word => Interface.ofWord? word
  | .object [(word, .null)] => Interface.ofWord? word
  | _ => Option.none

/-- The document value of an interface. -/
def Interface.toValue (face : Interface) : Value :=
  .string face.word

/-- An initial value is written as a number or as a string. -/
def InitialValue.ofValue? : Value → Option InitialValue
  | .number value => some (.number value.toFloat)
  | .string written => some (.text written)
  | _ => none

/-- The document value of an initial value. -/
def InitialValue.toValue : InitialValue → Value
  | .number value => realValue value
  | .text written => .string written

/-- Read a variable. -/
def Variable.ofValue? (value : Value) : Option Variable := do
  let fields ← Fields.ofValue? ["name", "units", "initial_value", "interface"] value
  return {
    name := ← fields.required 0 "name" Value.asString?
    units := ← fields.required 1 "units" Value.asString?
    initialValue := ← fields.optional 2 "initial_value" InitialValue.ofValue?
    face := ← fields.optional 3 "interface" Interface.ofValue? }

/-- The document value of a variable. -/
def Variable.toValue (declared : Variable) : Value :=
  .object (("name", .string declared.name) :: ("units", .string declared.units) ::
    optionEntry "initial_value" InitialValue.toValue declared.initialValue ++
    optionEntry "interface" Interface.toValue declared.face)

/-- Read an import source. -/
def ImportSource.ofValue? (value : Value) : Option ImportSource := do
  let fields ← Fields.ofValue? ["url", "component"] value
  return {
    url := ← fields.required 0 "url" Value.asString?
    component := ← fields.required 1 "component" Value.asString? }

/-- The document value of an import source. -/
def ImportSource.toValue (source : ImportSource) : Value :=
  .object [("url", .string source.url), ("component", .string source.component)]

/-- Read a component whose tree is at most `depth` components deep. -/
def Component.ofValueWithin? : (depth : Nat) → Value → Option Component
  | 0, _ => none
  | depth + 1, value => do
      let fields ← Fields.ofValue? ["name", "variables", "math", "components", "import"] value
      return {
        name := ← fields.required 0 "name" Value.asString?
        declarations := ← fields.list 1 "variables" (Json.listOf Variable.ofValue?)
        math := ← fields.optional 2 "math" Value.asString?
        components := ← fields.list 3 "components"
          (Json.listOf (Component.ofValueWithin? depth))
        source := ← fields.optional 4 "import" ImportSource.ofValue? }

mutual

/-- The document value of a component. -/
def Component.toValue : Component → Value
  | .mk name declarations math components source =>
      .object (("name", .string name) ::
        listEntry "variables" Variable.toValue declarations ++
        optionEntry "math" Value.string math ++
        (match components with
          | [] => []
          | first :: rest => [("components", .array (first.toValue :: Component.toValues rest))]) ++
        optionEntry "import" ImportSource.toValue source)

/-- The document values of components. -/
def Component.toValues : List Component → List Value
  | [] => []
  | component :: rest => component.toValue :: Component.toValues rest

end

/-- Read a pair of equivalent variables. -/
def VariablePair.ofValue? (value : Value) : Option VariablePair := do
  let fields ← Fields.ofValue? ["variable_1", "variable_2"] value
  return {
    first := ← fields.required 0 "variable_1" Value.asString?
    second := ← fields.required 1 "variable_2" Value.asString? }

/-- The document value of a pair. -/
def VariablePair.toValue (pair : VariablePair) : Value :=
  .object [("variable_1", .string pair.first), ("variable_2", .string pair.second)]

/-- Read a connection. Its list of pairs must be written. -/
def Connection.ofValue? (value : Value) : Option Connection := do
  let fields ← Fields.ofValue? ["component_1", "component_2", "variables"] value
  return {
    first := ← fields.required 0 "component_1" Value.asString?
    second := ← fields.required 1 "component_2" Value.asString?
    pairs := ← fields.required 2 "variables" (Json.listOf VariablePair.ofValue?) }

/-- The document value of a connection. -/
def Connection.toValue (connection : Connection) : Value :=
  .object [("component_1", .string connection.first), ("component_2", .string connection.second),
    ("variables", .array (connection.pairs.map VariablePair.toValue))]

mutual

/-- How deep arrays and objects nest in a value. -/
def Json.Value.depth : Value → Nat
  | .array items => Json.Value.depthOfItems items + 1
  | .object entries => Json.Value.depthOfEntries entries + 1
  | _ => 0

/-- The greatest depth among items. -/
def Json.Value.depthOfItems : List Value → Nat
  | [] => 0
  | item :: rest => max item.depth (Json.Value.depthOfItems rest)

/-- The greatest depth among the values of entries. -/
def Json.Value.depthOfEntries : List (String × Value) → Nat
  | [] => 0
  | (_, value) :: rest => max value.depth (Json.Value.depthOfEntries rest)

end

/-- Read a component. A tree of components is never deeper than the value that describes it. -/
def Component.ofValue? (value : Value) : Option Component :=
  Component.ofValueWithin? value.depth value

/-- Read a model, whatever its schema version. -/
def Model.ofValue? (value : Value) : Option Model := do
  let fields ← Fields.ofValue? ["schema", "name", "units", "components", "connections"] value
  return {
    schema := ← fields.required 0 "schema" Value.asString?
    name := ← fields.required 1 "name" Value.asString?
    units := ← fields.list 2 "units" (Json.listOf UnitsDefinition.ofValue?)
    components := ← fields.list 3 "components" (Json.listOf Component.ofValue?)
    connections := ← fields.list 4 "connections" (Json.listOf Connection.ofValue?) }

/-- The document value of a model. -/
def Model.toValue (model : Model) : Value :=
  .object (("schema", .string model.schema) :: ("name", .string model.name) ::
    listEntry "units" UnitsDefinition.toValue model.units ++
    listEntry "components" Component.toValue model.components ++
    listEntry "connections" Connection.toValue model.connections)

/-- The text of a model as a document. -/
def Model.toJson (model : Model) : String :=
  model.toValue.pretty

end ComponentModel
