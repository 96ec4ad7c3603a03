import ComponentModel.Decimal.Layout
import ComponentModel.Decimal.Numeral
import ComponentModel.Text

/-!
# Component models

A model is a tree of named components. Every component declares variables with units and carries
its equations as markup; connections make variables of different components equivalent. Units
definitions are local to a model and are products of powers of other units.
-/

namespace ComponentModel

/-- A scale in front of units: a power of ten, or the name of one. -/
inductive UnitPrefix where
  | power (power : Int)
  | name (name : String)
  deriving Repr, DecidableEq

/-- The prefix as it was written. -/
def UnitPrefix.text : UnitPrefix → String
  | .power exponent => (if exponent < 0 then "-" else "") ++ Decimal.digitText exponent.natAbs
  | .name word => word

/-- One factor of a units definition: `multiplier * (prefix * reference) ^ exponent`. -/
structure UnitTerm where
  reference : String
  siPrefix : Option UnitPrefix
  exponent : Option Float
  multiplier : Option Float
  deriving Repr

/-- The exponent of a term, one where it is not written. -/
def UnitTerm.power (term : UnitTerm) : Float :=
  term.exponent.getD 1.0

/-- The multiplier of a term, one where it is not written. -/
def UnitTerm.factor (term : UnitTerm) : Float :=
  term.multiplier.getD 1.0

/-- Named units, a product of terms. Without terms they are a new base unit. -/
structure UnitsDefinition where
  name : String
  units : List UnitTerm
  deriving Repr

/-- Whether a definition introduces a base unit. -/
def UnitsDefinition.isBase (definition : UnitsDefinition) : Bool :=
  definition.units.isEmpty

/-- Where a variable may be seen from. -/
inductive Interface where
  /-- From the parent and the siblings of its component. -/
  | «public»
  /-- From the children of its component. -/
  | «private»
  | publicAndPrivate
  | none
  deriving Repr, DecidableEq

namespace Interface

/-- All interfaces. -/
def all : List Interface := [.public, .private, .publicAndPrivate, .none]

/-- The word for an interface. -/
def word : Interface → String
  | .public => "public"
  | .private => "private"
  | .publicAndPrivate => "public_and_private"
  | .none => "none"

/-- The interface of a word. -/
def ofWord? (text : String) : Option Interface :=
  all.find? fun candidate => candidate.word == text

/-- Whether the variable is seen from outside its component. -/
def hasPublic (face : Interface) : Bool :=
  face == .public || face == .publicAndPrivate

/-- Whether the variable is seen from inside its component. -/
def hasPrivate (face : Interface) : Bool :=
  face == .private || face == .publicAndPrivate

end Interface

/-- The initial value of a variable: a number, or a text that is a number or names another
variable of the component. -/
inductive InitialValue where
  | number (value : Float)
  | text (text : String)
  deriving Repr

namespace InitialValue

/-- The text of a literal initial value. A text that is a number stays as it was written. -/
def literal : InitialValue → Option String
  | .number value => some (Decimal.text value)
  | .text written =>
      let trimmed := Text.trim written
      if (Decimal.read? trimmed).isSome then some trimmed else Option.none

/-- The name of the variable that gives the initial value. -/
def variableName : InitialValue → Option String
  | .number _ => Option.none
  | .text written =>
      let trimmed := Text.trim written
      if (Decimal.read? trimmed).isSome then Option.none else some trimmed

/-- The initial value as text. -/
def display : InitialValue → String
  | .number value => Decimal.text value
  | .text written => written

end InitialValue

/-- A variable declared by a component. -/
structure Variable where
  name : String
  units : String
  initialValue : Option InitialValue
  face : Option Interface
  deriving Repr

/-- Whether a variable carries an initial value of any kind. -/
def Variable.isInitialised (declared : Variable) : Bool :=
  declared.initialValue.isSome

/-- Where an imported component comes from: a document of a library, and a component in it. -/
structure ImportSource where
  url : String
  component : String
  deriving Repr, DecidableEq

/-- An import source on one line. -/
def ImportSource.text (source : ImportSource) : String :=
  source.url ++ "#" ++ source.component

/-- A component: its variables, its equations and the components inside it. -/
structure Component where
  name : String
  declarations : List Variable
  math : Option String
  components : List Component
  source : Option ImportSource
  deriving Repr

namespace Component

/-- The first variable of a name. -/
def findVariable (component : Component) (name : String) : Option Variable :=
  component.declarations.find? fun candidate => candidate.name == name

/-- The place of the first variable of a name. -/
def variableIndex? (component : Component) (name : String) : Option Nat :=
  component.declarations.findIdx? fun candidate => candidate.name == name

/-- Whether a component stands for one of another document. -/
def isImport (component : Component) : Bool :=
  component.source.isSome

/-- The math of a component, unless it is blank. -/
def mathText? (component : Component) : Option String :=
  component.math.filter fun text => !Text.blank text

mutual

/-- A component followed by all components inside it, parents before their children. -/
def preorder : Component → List Component
  | .mk name declarations math components source =>
      .mk name declarations math components source :: preorderAll components

/-- The components of a list and all components inside them. -/
def preorderAll : List Component → List Component
  | [] => []
  | component :: rest => component.preorder ++ preorderAll rest

end

end Component

/-- Two variables declared equivalent. -/
structure VariablePair where
  first : String
  second : String
  deriving Repr, DecidableEq

/-- Equivalences between the variables of two components. -/
structure Connection where
  first : String
  second : String
  pairs : List VariablePair
  deriving Repr, DecidableEq

/-- A component model. -/
structure Model where
  schema : String
  name : String
  units : List UnitsDefinition
  components : List Component
  connections : List Connection
  deriving Repr

/-- The versions of the document form that are understood. -/
def supportedSchemas : List String := ["1.0"]

/-- The version in which new models are written. -/
def currentSchema : String := "1.0"

namespace Model

/-- All components, parents before their children. -/
def preorder (model : Model) : List Component :=
  Component.preorderAll model.components

/-- The first component of a name, anywhere in the tree. -/
def findComponent (model : Model) (name : String) : Option Component :=
  model.preorder.find? fun candidate => candidate.name == name

/-- A variable of a component. -/
def findVariable (model : Model) (component name : String) : Option Variable :=
  (model.findComponent component).bind fun found => found.findVariable name

/-- Whether any component is imported. -/
def hasImports (model : Model) : Bool :=
  model.preorder.any Component.isImport

/-- The first units definition of a name. -/
def findUnits (model : Model) (name : String) : Option UnitsDefinition :=
  model.units.find? fun candidate => candidate.name == name

end Model

end ComponentModel
