import ComponentModel.Model.Fault

/-!
# Valid models

A model is checked in a fixed order: names, units definitions, components with their variables,
math, connections, and for the strict check the use of every variable. The first fault found is
the answer. The math and the connections record the variables that they use.
-/

namespace ComponentModel

/-- A variable by the names of its component and its own. -/
abbrev UsedVariable := String × String

namespace Validation

/-- Check values in order; the first fault found is the answer. -/
def forEach {α : Type} (check : α → Except ModelFault Unit) : List α → Except ModelFault Unit
  | [] => .ok ()
  | value :: rest => do
      check value
      forEach check rest

/-- Check values in order, and collect what they use. -/
def collect {α : Type} (check : α → Except ModelFault (List UsedVariable)) :
    List α → Except ModelFault (List UsedVariable)
  | [] => .ok []
  | value :: rest => do
      let used ← check value
      let others ← collect check rest
      return used ++ others

/-- Fail with a fault where a condition does not hold. -/
def require (condition : Bool) (fault : ModelFault) : Except ModelFault Unit :=
  if condition then .ok () else .error fault

/-- Check names of components, `seen` being those in front of them. -/
def componentNames (model : String) : (seen : List String) → List String → Except ModelFault Unit
  | _, [] => .ok ()
  | seen, name :: rest => do
      require (!Text.blank name) (.unnamedComponent model)
      require (!seen.contains name) (.duplicateComponent name)
      componentNames model (name :: seen) rest

/-- Check the names of a model and of all its components. -/
def names (model : Model) : Except ModelFault Unit := do
  require (!Text.blank model.name) .unnamedModel
  componentNames model.name [] (model.preorder.map Component.name)

/-- Check names of units definitions, `seen` being those in front of them. -/
def unitsNames : (seen : List String) → List String → Except ModelFault Unit
  | _, [] => .ok ()
  | seen, name :: rest => do
      require (!Units.isBuiltin name) (.builtinUnitsRedefined name)
      require (!seen.contains name) (.duplicateUnits name)
      unitsNames (name :: seen) rest

/-- Check the units definitions of a model and resolve them. -/
def units (model : Model) : Except ModelFault Units.Registry := do
  unitsNames [] (model.units.map UnitsDefinition.name)
  (Units.Registry.ofDefinitions model.units).mapError .units

/-- Check names and units of variables, `seen` being the names in front of them. -/
def declarations (registry : Units.Registry) (component : String) :
    (seen : List String) → List Variable → Except ModelFault Unit
  | _, [] => .ok ()
  | seen, declared :: rest => do
      require (!Text.blank declared.name) (.unnamedVariable component)
      require (!seen.contains declared.name) (.duplicateVariable declared.name component)
      require (registry.contains declared.units) (.units (.unknown declared.units))
      declarations registry component (declared.name :: seen) rest

/-- The variable that gives the initial value of another one. -/
def initialReference (declared : Variable) : Option String :=
  declared.initialValue.bind InitialValue.variableName

/-- Check the variable that an initial value refers to. -/
def initialValue (component : Component) (declared : Variable) : Except ModelFault Unit :=
  match initialReference declared with
  | none => .ok ()
  | some reference =>
      require (component.findVariable reference).isSome
        (.undefinedVariable reference component.name (.initialValue declared.name))

/-- Check a component and its variables. -/
def component (registry : Units.Registry) (component : Component) : Except ModelFault Unit := do
  match component.source with
  | some source => throw (.unresolvedImport component.name source)
  | none => pure ()
  declarations registry component.name [] component.declarations
  forEach (initialValue component) component.declarations

mutual

/-- The texts of all `ci` elements of an element. -/
def namesIn : Markup.Element → List String
  | .mk name _ children text => (if name == "ci" then [text] else []) ++ namesInAll children

/-- The texts of all `ci` elements of a list of elements. -/
def namesInAll : List Markup.Element → List String
  | [] => []
  | element :: rest => namesIn element ++ namesInAll rest

end

/-- Check the math of a component, and collect the variables that the math and the initial values
refer to. Without math nothing is collected. -/
def math (component : Component) : Except ModelFault (List UsedVariable) :=
  match component.math with
  | none => .ok []
  | some text =>
      match Markup.readMath text with
      | .error fault => .error (.invalidMath component.name fault)
      | .ok roots =>
          .ok ((namesInAll roots ++ component.declarations.filterMap initialReference).map
            fun name => (component.name, name))

/-- Check that a connected variable has an interface. -/
def connectedInterface (component : Component) (declared : Variable) : Except ModelFault Unit :=
  require (match declared.face with
      | some .none => false
      | some _ => true
      | none => false)
    (.missingInterface declared.name component.name)

/-- Check one pair of a connection, and collect its variables. -/
def pair (strict : Bool) (registry : Units.Registry) (connection : Connection)
    (first second : Component) (pair : VariablePair) : Except ModelFault (List UsedVariable) := do
  let referrer := Referrer.connection connection.first connection.second
  let some one := first.findVariable pair.first
    | throw (.undefinedVariable pair.first first.name referrer)
  let some other := second.findVariable pair.second
    | throw (.undefinedVariable pair.second second.name referrer)
  let compatible ← (registry.compatible one.units other.units).mapError .units
  require compatible (.incompatibleConnection first.name one.name second.name other.name)
  if strict then
    connectedInterface first one
    connectedInterface second other
  return [(first.name, one.name), (second.name, other.name)]

/-- Check a connection, and collect its variables. -/
def connection (strict : Bool) (registry : Units.Registry) (model : Model)
    (connection : Connection) : Except ModelFault (List UsedVariable) := do
  let some first := model.findComponent connection.first
    | throw (.undefinedComponent connection.first connection.first connection.second)
  let some second := model.findComponent connection.second
    | throw (.undefinedComponent connection.second connection.first connection.second)
  require (first.name != second.name) (.selfConnection first.name)
  require (!connection.pairs.isEmpty) (.emptyConnection connection.first connection.second)
  collect (pair strict registry connection first second) connection.pairs

/-- Check that every variable of a component is used. -/
def usage (used : List UsedVariable) (component : Component) : Except ModelFault Unit :=
  forEach (fun declared => require (used.contains (component.name, declared.name))
    (.unusedVariable declared.name component.name)) component.declarations

end Validation

/-- Check a model. The strict check also asks that connected variables have an interface and that
every variable is used. -/
def Model.validate (strict : Bool) (model : Model) : Except ModelFault Unit := do
  Validation.names model
  let registry ← Validation.units model
  Validation.forEach (Validation.component registry) model.preorder
  let inMath ← Validation.collect Validation.math model.preorder
  let connected ←
    Validation.collect (Validation.connection strict registry model) model.connections
  if strict then
    Validation.forEach (Validation.usage (inMath ++ connected)) model.preorder

/-- A model that has passed a validation, ready to be analysed. -/
structure ValidModel where
  model : Model
  accepted : ∃ strict, model.validate strict = .ok ()

/-- Check a model, and hand it on as a valid one. -/
def Model.validated (strict : Bool) (model : Model) : Except ModelFault ValidModel :=
  match passed : model.validate strict with
  | .ok () => .ok ⟨model, strict, passed⟩
  | .error fault => .error fault

end ComponentModel
