import ComponentModel.Markup.Element
import ComponentModel.Model.Document
import ComponentModel.Units.Registry

/-!
# Faults of models

Everything that can be wrong with a model or with a library of models, by its cause. The wording
is in `ModelFault.message` alone.
-/

namespace ComponentModel

/-- What refers to a variable. -/
inductive Referrer where
  | connection (first second : String)
  | initialValue (name : String)
  deriving Repr, DecidableEq

/-- The words for a connection. -/
def connectionText (first second : String) : String :=
  "connection between '" ++ first ++ "' and '" ++ second ++ "'"

/-- The words for a referrer. -/
def Referrer.text : Referrer → String
  | .connection first second => connectionText first second
  | .initialValue name => "the initial value of '" ++ name ++ "'"

/-- Why a document is no model, a model is not valid, or imports cannot be resolved. -/
inductive ModelFault where
  /-- The text is not a document of the right form. -/
  | unreadable
  | unsupportedSchema (version : String)
  | unnamedModel
  | unnamedComponent (model : String)
  | unnamedVariable (component : String)
  | emptyConnection (first second : String)
  | duplicateComponent (name : String)
  | duplicateVariable (name component : String)
  | duplicateUnits (name : String)
  | builtinUnitsRedefined (name : String)
  | unresolvedImport (component : String) (source : ImportSource)
  | undefinedComponent (name first second : String)
  | undefinedVariable (name component : String) (referrer : Referrer)
  | selfConnection (component : String)
  | incompatibleConnection (firstComponent firstVariable secondComponent secondVariable : String)
  | unusedVariable (name component : String)
  | missingInterface (name component : String)
  | units (fault : Units.UnitsError)
  | invalidMath (component : String) (fault : Markup.MathError)
  | importNotFound (url : String)
  | importedComponentNotFound (source : ImportSource)
  /-- The sources run through from one import back to itself. -/
  | circularImport (chain : List String)
  | missingDirectory (path : String)
  | notADirectory
  | undecodableFile (path : String)
  deriving Repr, DecidableEq

namespace ModelFault

/-- The message for a field that is missing or blank. -/
def missingField (field context : String) : String :=
  "Missing required field '" ++ field ++ "' in " ++ context

/-- The message of a fault. -/
def message : ModelFault → String
  | unreadable => "Failed to parse JSON"
  | unsupportedSchema version =>
      "Unsupported schema version '" ++ version ++ "'. Supported versions: " ++
        ", ".intercalate supportedSchemas
  | unnamedModel => missingField "name" "model"
  | unnamedComponent model => missingField "name" ("a component of model '" ++ model ++ "'")
  | unnamedVariable component =>
      missingField "name" ("a variable of component '" ++ component ++ "'")
  | emptyConnection first second => missingField "variables" (connectionText first second)
  | duplicateComponent name => "Duplicate component name: '" ++ name ++ "'"
  | duplicateVariable name component =>
      "Duplicate variable name '" ++ name ++ "' in component '" ++ component ++ "'"
  | duplicateUnits name => "Duplicate units definition: '" ++ name ++ "'"
  | builtinUnitsRedefined name => "Units '" ++ name ++ "' redefine built-in units"
  | unresolvedImport component source =>
      "Component '" ++ component ++ "' imports '" ++ source.text ++
        "' which has not been resolved"
  | undefinedComponent name first second =>
      "Undefined component '" ++ name ++ "' referenced in " ++ connectionText first second
  | undefinedVariable name component referrer =>
      "Undefined variable '" ++ name ++ "' in component '" ++ component ++ "' referenced in " ++
        referrer.text
  | selfConnection component => "Connection joins component '" ++ component ++ "' to itself"
  | incompatibleConnection firstComponent firstVariable secondComponent secondVariable =>
      "Variable '" ++ firstVariable ++ "' in component '" ++ firstComponent ++ "' and variable '" ++
        secondVariable ++ "' in component '" ++ secondComponent ++ "' have incompatible units"
  | unusedVariable name component =>
      "Variable '" ++ name ++ "' in component '" ++ component ++ "' is never used"
  | missingInterface name component =>
      "Variable '" ++ name ++ "' in component '" ++ component ++
        "' is connected but has no interface"
  | units fault => "Units error: " ++ fault.message
  | invalidMath component fault =>
      "Invalid math in component '" ++ component ++ "': " ++ fault.message
  | importNotFound url => "Import '" ++ url ++ "' not found in library"
  | importedComponentNotFound source =>
      "Component '" ++ source.component ++ "' not found in imported model '" ++ source.url ++ "'"
  | circularImport chain => "Circular import detected: " ++ " -> ".intercalate chain
  | missingDirectory path => "Library error: Directory not found: " ++ path
  | notADirectory => "Library error: Failed to read directory: Not a directory (os error 20)"
  | undecodableFile path =>
      "Library error: Failed to read " ++ path ++ ": stream did not contain valid UTF-8"

end ModelFault

/-- Check the schema version, once the whole document has been read. -/
def Model.checkSchema (model : Model) : Except ModelFault Model :=
  if supportedSchemas.contains model.schema then .ok model
  else .error (.unsupportedSchema model.schema)

/-- The model of a document value. -/
def Model.fromValue (value : Json.Value) : Except ModelFault Model :=
  match Model.ofValue? value with
  | some model => model.checkSchema
  | none => .error .unreadable

/-- The model of a text. -/
def Model.read (text : String) : Except ModelFault Model :=
  match Json.Value.read? text with
  | some value => Model.fromValue value
  | none => .error .unreadable

end ComponentModel
