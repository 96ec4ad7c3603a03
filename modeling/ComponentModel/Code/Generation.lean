import ComponentModel.Code.Defaults
import ComponentModel.Code.Rendering
import ComponentModel.Code.Schedule

/-!
# Generation of code

An analysed model is written through a profile into two texts, an interface and an
implementation. Both are made of sections with a blank line between them; empty sections are left
out.
-/

namespace ComponentModel.Code

open Analysis (AnalysedModel AnalysedVariable VariableType)
open Equation (MathFunction)

/-- The version that is written into generated code. -/
def generatorVersion : String := "0.3.0"

/-- The texts generated for a model. -/
structure GeneratedCode where
  /-- Empty for a profile without an interface. -/
  interface : String
  implementation : String
  deriving Repr, DecidableEq

/-- Sections one behind the other, those without text left out. -/
def joinSections (sections : List String) : String :=
  "\n".intercalate (sections.filter fun code => code != "")

/-- A number as it is written. -/
def countText (number : Nat) : String :=
  Decimal.digitText number

/-- Whether a character may stand in a version. -/
def isVersionCharacter (character : Char) : Bool :=
  character.isDigit || character == '.'

/-- Whether a run of digits and points is a version of three parts. -/
def isVersion (run : List Char) : Bool :=
  run.count '.' == 2 && (run.getLast?.map Char.isDigit).getD false

/-- The characters with `.post0` behind the first version of three parts. Runs of digits and
points start at a digit; every step takes at least one character. -/
def markVersion : (steps : Nat) → List Char → List Char
  | _, [] => []
  | 0, characters => characters
  | steps + 1, character :: rest =>
      if character.isDigit then
        let (run, rest) := (character :: rest).span isVersionCharacter
        if isVersion run then run ++ ".post0".toList ++ rest
        else run ++ markVersion steps rest
      else
        character :: markVersion steps rest

/-- A text with its first version marked as a later release. -/
def laterRelease (text : String) : String :=
  String.ofList (markVersion text.length text.toList)

namespace Profile

/-- An element of an array, or the integration variable. -/
def variableText (profile : Profile) (rate : Bool) (type : VariableType) (place : Nat) : String :=
  let element (array : TextField) : String :=
    profile.text array ++ profile.text .openArray ++ countText place ++ profile.text .closeArray
  match type with
  | .integrationVariable => profile.text .integrationVariable
  | .state => element (if rate then .ratesArray else .statesArray)
  | .constant | .computedConstant | .algebraic => element .variablesArray

/-- The text of a declaration in a model. -/
def referenceText (profile : Profile) (model : AnalysedModel) (rate : Bool) (declaration : Nat) :
    String :=
  match model.binding? declaration with
  | some (type, place) => profile.variableText rate type place
  | none => profile.text .undefined

/-- A template with its code filled in. -/
def withCode (profile : Profile) (template : TextField) (code : String) : String :=
  Text.fill (profile.text template) "<CODE>" code

/-- The comment that says what generated the code. -/
def originComment (profile : Profile) : String :=
  if profile.text .comment == "" || profile.text .originComment == "" then
    ""
  else
    let information :=
      if profile.isModified then "a modified " ++ profile.kind.name ++ " profile of"
      else "the " ++ profile.kind.name ++ " profile of"
    profile.withCode .comment (Text.fillAll (profile.text .originComment)
      [("<PROFILE_INFORMATION>", information), ("<VERSION>", generatorVersion)])

/-- The functions that the code for a model brings along. -/
def helpers (profile : Profile) (model : AnalysedModel) : List HelperFunction :=
  model.functions.filterMap profile.helper?

/-- The word for the type of a variable in tables. -/
def typeText (profile : Profile) : VariableType → String
  | .constant => profile.text .constantVariableType
  | .computedConstant => profile.text .computedConstantVariableType
  | .algebraic | .state | .integrationVariable => profile.text .algebraicVariableType

/-- The entry of a variable in a table. -/
def infoEntry (profile : Profile) (entry : TextField) (found : AnalysedVariable) : String :=
  Text.fillAll (profile.text entry)
    [("<NAME>", found.declared.name), ("<UNITS>", found.declared.units),
     ("<COMPONENT>", found.declared.component), ("<TYPE>", profile.typeText found.type)]

/-- The entries of variables in a table, a line each. -/
def infoList (profile : Profile) (entry : TextField) (entries : List AnalysedVariable) : String :=
  if entries.isEmpty then
    ""
  else
    (profile.text .arrayElementSeparator ++ "\n").intercalate
      (entries.map fun found => profile.text .indent ++ profile.infoEntry entry found) ++ "\n"

/-- All variables that are listed in tables. -/
def listed (model : AnalysedModel) : List AnalysedVariable :=
  model.integration.toList ++ model.states ++ model.otherVariables

/-- The number of bytes that hold any of some texts with an end mark. -/
def sizeFor (texts : List String) : Nat :=
  (texts.map String.utf8ByteSize).foldl max 0 + 1

/-- A template of a type with the sizes of its texts. -/
def sized (profile : Profile) (model : AnalysedModel) (template : TextField) : String :=
  let declared := (listed model).map AnalysedVariable.declared
  Text.fillAll (profile.text template)
    [("<NAME_SIZE>", countText (sizeFor (declared.map (·.name)))),
     ("<UNITS_SIZE>", countText (sizeFor (declared.map (·.units)))),
     ("<COMPONENT_SIZE>", countText (sizeFor (declared.map (·.component))))]

/-- The types that tables are made of. -/
def tableTypes (profile : Profile) (model : AnalysedModel) : List String :=
  [profile.sized model .variableTypeObject, profile.sized model .variableInfoObject,
   profile.sized model .variableInfoWithTypeObject]

/-- The interface of a model that can be solved. -/
def interfaceSections (profile : Profile) (model : AnalysedModel) : List String :=
  let ode := model.type == .ode
  let onlyOde (field : TextField) : String := if ode then profile.text field else ""
  [profile.originComment,
   profile.text .interfaceHeader,
   profile.text .interfaceVersion ++ profile.text .interfaceGeneratorVersion,
   profile.text .interfaceStateCount ++ profile.text .interfaceVariableCount] ++
  profile.tableTypes model ++
  [onlyOde .interfaceIntegrationInfo ++ onlyOde .interfaceStateInfo ++
    profile.text .interfaceVariableInfo] ++
  (profile.helpers model).map HelperFunction.interface ++
  [onlyOde .interfaceCreateStatesArrayMethod ++
    profile.text .interfaceCreateVariablesArrayMethod ++
    profile.text .interfaceDeleteArrayMethod,
   profile.text .interfaceInitializeStatesAndConstantsMethod ++
    profile.text .interfaceComputeComputedConstantsMethod ++
    onlyOde .interfaceComputeRatesMethod ++
    profile.text .interfaceComputeVariablesMethod]

/-- The function that makes an array of a size. -/
def createArray (profile : Profile) (method : TextField) (size : String) : String :=
  profile.withCode method
    (profile.text .indent ++ Text.fill (profile.text .returnCreatedArray) "<ARRAY_SIZE>" size)

/-- A procedure with its statements. -/
def procedure (profile : Profile) (method : TextField) (statements : String) : String :=
  let code :=
    if statements != "" then statements
    else if profile.text .emptyMethod == "" then ""
    else profile.text .indent ++ profile.text .emptyMethod
  profile.withCode method code

/-- A statement on a line of its own. -/
def line (profile : Profile) (code : String) : String :=
  profile.text .indent ++ code ++ profile.text .commandSeparator ++ "\n"

/-- The statements of the equations of some places. -/
def equationLines (profile : Profile) (model : AnalysedModel) (places : Places) : String :=
  String.join <| places.map fun place =>
    match model.equations[place]? with
    | some equation =>
        profile.line (profile.code (profile.referenceText model) false equation.expr)
    | none => ""

/-- An assignment to a variable. -/
def assignmentLine (profile : Profile) (target : AnalysedVariable) (value : String) : String :=
  profile.line
    (profile.variableText false target.type target.place ++ profile.text .assignment ++ value)

/-- The states and constants of a model. -/
def initialised (model : AnalysedModel) : List AnalysedVariable :=
  model.states ++ model.otherVariables.filter fun found => found.type == .constant

/-- The initial value of a variable, if it is a number. -/
def literalLine (profile : Profile) (target : AnalysedVariable) : String :=
  match target.initial.initialValue.bind InitialValue.literal with
  | some literal => profile.assignmentLine target (doubleText literal)
  | none => ""

/-- The initial value of a variable, if it is that of another variable. -/
def copyLine (profile : Profile) (model : AnalysedModel) (target : AnalysedVariable) : String :=
  let source := target.initial.initialValue.bind InitialValue.variableName
  match source.bind (model.bindingOf? target.initial.component) with
  | some (type, place) => profile.assignmentLine target (profile.variableText false type place)
  | none => ""

/-- The statements that give states and constants their values: numbers first, then the values of
other variables, then equations without references. -/
def initialisation (profile : Profile) (model : AnalysedModel) (places : Places) : String :=
  String.join ((initialised model).map profile.literalLine) ++
    String.join ((initialised model).map (profile.copyLine model)) ++
    profile.equationLines model places

/-- The versions of the code and of its generator. -/
def versions (profile : Profile) : String :=
  let version := profile.text .implementationVersion
  (if profile.isModified then laterRelease version else version) ++
    Text.fill (profile.text .implementationGeneratorVersion) "<VERSION>" generatorVersion

/-- The implementation of a model that can be solved. -/
def implementationSections (profile : Profile) (model : AnalysedModel) : List String :=
  let ode := model.type == .ode
  let onlyOde (sections : List String) : List String := if ode then sections else []
  let schedule := Schedule.ofModel model
  [profile.originComment,
   Text.fill (profile.text .implementationHeader) "<INTERFACE_FILE_NAME>"
    (profile.text .interfaceFileName),
   profile.versions,
   Text.fill (profile.text .implementationStateCount) "<STATE_COUNT>"
      (countText model.states.length) ++
    Text.fill (profile.text .implementationVariableCount) "<VARIABLE_COUNT>"
      (countText model.otherVariables.length)] ++
  (if profile.flag .interface then [] else profile.tableTypes model) ++
  onlyOde
    (model.integration.toList.map (fun found =>
      profile.withCode .implementationIntegrationInfo
        (profile.infoEntry .variableInfoEntry found)) ++
     [profile.withCode .implementationStateInfo
      (profile.infoList .variableInfoEntry model.states)]) ++
  [profile.withCode .implementationVariableInfo
    (profile.infoList .variableInfoWithTypeEntry model.otherVariables)] ++
  (profile.helpers model).map HelperFunction.implementation ++
  onlyOde [profile.createArray .implementationCreateStatesArrayMethod "STATE_COUNT"] ++
  [profile.createArray .implementationCreateVariablesArrayMethod "VARIABLE_COUNT",
   profile.text .implementationDeleteArrayMethod,
   profile.procedure .implementationInitializeStatesAndConstantsMethod
    (profile.initialisation model schedule.initialise),
   profile.procedure .implementationComputeComputedConstantsMethod
    (profile.equationLines model schedule.computedConstants)] ++
  onlyOde [profile.procedure .implementationComputeRatesMethod
    (profile.equationLines model schedule.rates)] ++
  [profile.procedure .implementationComputeVariablesMethod
    (profile.equationLines model schedule.otherVariables)]

/-- The interface of a model, empty unless the model can be solved. -/
def interfaceCode (profile : Profile) (model : AnalysedModel) : String :=
  if model.type.isValid && profile.flag .interface then
    joinSections (profile.interfaceSections model)
  else
    ""

/-- The implementation of a model, empty unless the model can be solved. -/
def implementationCode (profile : Profile) (model : AnalysedModel) : String :=
  if model.type.isValid then joinSections (profile.implementationSections model) else ""

/-- Both texts for a model. -/
def generate (profile : Profile) (model : AnalysedModel) : GeneratedCode :=
  ⟨profile.interfaceCode model, profile.implementationCode model⟩

end Profile

end ComponentModel.Code
