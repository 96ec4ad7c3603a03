import ComponentModel.Model.Fault

/-!
# Libraries of models

A library holds documents by their URLs. Flattening a model replaces every imported component by
a copy of its definition, in which further imports are replaced in turn. The copy takes the name
of the importing component and keeps that component's children behind its own. The connections
inside an imported tree and the units definitions of its document come along; names of copied
components that are taken already get a numeric suffix.
-/

namespace ComponentModel

/-- Models by URL, sorted by URL. -/
structure Library where
  models : List (String × Model)
  deriving Repr

namespace Library

/-- The library without models. -/
def empty : Library := ⟨[]⟩

/-- The model of a URL. -/
def get? (library : Library) (url : String) : Option Model :=
  library.models.lookup url

/-- Whether a URL has a model. -/
def contains (library : Library) (url : String) : Bool :=
  (library.get? url).isSome

/-- Put a model under a URL, in place of any other model there. -/
def add (library : Library) (url : String) (model : Model) : Library :=
  ⟨Json.insertSorted url model library.models⟩

/-- Take the model of a URL out. -/
def remove (library : Library) (url : String) : Library :=
  ⟨library.models.filter fun entry => entry.1 != url⟩

/-- All URLs, sorted. -/
def urls (library : Library) : List String :=
  library.models.map Prod.fst

/-- The number of components in all documents. -/
def componentCount (library : Library) : Nat :=
  (library.models.flatMap fun entry => entry.2.preorder).length

end Library

/-- New names of components by their names in one document; the latest entry of a name counts. -/
abbrev Renaming := List (String × String)

/-- What flattening has gathered so far. -/
structure Flattening where
  /-- Component names in use. -/
  taken : List String
  /-- Connections of imported documents, renamed. -/
  connections : List Connection
  /-- Units definitions of the model and of imported documents. -/
  units : List UnitsDefinition

/-- A connection with both ends renamed, if both ends have new names. -/
def Connection.rename? (names : Renaming) (connection : Connection) : Option Connection := do
  let first ← names.lookup connection.first
  let second ← names.lookup connection.second
  return { connection with first, second }

namespace Flattening

/-- The candidate number `index` for a name: the name itself, then the name with the suffixes
`_2`, `_3` and so on. -/
def candidate (name : String) (index : Nat) : String :=
  if index = 0 then name else name ++ "_" ++ Decimal.digitText (index + 1)

/-- The first candidate for a name that is not in use. One more candidate than there are names in
use is enough. -/
def unique (state : Flattening) (name : String) : String :=
  let candidates := (List.range (state.taken.length + 1)).map (candidate name)
  (candidates.find? fun chosen => !state.taken.contains chosen).getD name

/-- Put a name into use. -/
def take (state : Flattening) (name : String) : Flattening :=
  { state with taken := name :: state.taken }

/-- Add a units definition, unless there is one of its name. -/
def addUnits (state : Flattening) (definition : UnitsDefinition) : Flattening :=
  if state.units.any fun other => other.name == definition.name then state
  else { state with units := state.units ++ [definition] }

/-- Take over the connections inside a copied tree and the units of its document. -/
def absorb (state : Flattening) (document : Model) (names : Renaming) : Flattening :=
  document.units.foldl addUnits
    { state with
      connections := state.connections ++ document.connections.filterMap (·.rename? names) }

end Flattening

/-- How an expanded component is named. -/
inductive Naming where
  /-- Names stay as they are. -/
  | keep
  /-- Names in use get a suffix. -/
  | fresh

/-- A copy of the component that a source names, under the given name, together with the state
behind it. -/
abbrev Importer := ImportSource → String → Flattening → Except ModelFault (Component × Flattening)

/-- The component under its new name, without its children: for an imported one the copy of what
it stands for. -/
def expandSelf (importer : Importer) (name : String) (declarations : List Variable)
    (math : Option String) (source : Option ImportSource) (state : Flattening) :
    Except ModelFault (Component × Flattening) :=
  match source with
  | some source => importer source name state
  | none => .ok (⟨name, declarations, math, [], none⟩, state)

mutual

/-- Expand the component whose new name is given, and all components inside it. -/
def expandAs (importer : Importer) (naming : Naming) (newName : String) :
    Component → Renaming → Flattening → Except ModelFault (Component × Renaming × Flattening)
  | .mk name declarations math components source, names, state => do
      let names := (name, newName) :: names
      let (expanded, state) ← expandSelf importer newName declarations math source state
      let (children, names, state) ← expandAll importer naming components names state
      return ({ expanded with components := expanded.components ++ children }, names, state)

/-- Expand components one after the other. -/
def expandAll (importer : Importer) (naming : Naming) :
    List Component → Renaming → Flattening →
    Except ModelFault (List Component × Renaming × Flattening)
  | [], names, state => .ok ([], names, state)
  | component :: rest, names, state => do
      let (newName, state) := match naming with
        | .keep => (component.name, state)
        | .fresh =>
            let chosen := state.unique component.name
            (chosen, state.take chosen)
      let (expanded, names, state) ← expandAs importer naming newName component names state
      let (others, names, state) ← expandAll importer naming rest names state
      return (expanded :: others, names, state)

end

namespace Library

/-- Copy the component that a source names. `chain` holds the sources that are being copied, the
outermost first. A chain without repetition is no longer than the number of components in the
library, which bounds `depth`. -/
def importFrom (library : Library) : (depth : Nat) → (chain : List String) → Importer
  | 0, chain, source, _, _ => .error (.circularImport (chain ++ [source.text]))
  | depth + 1, chain, source, name, state => do
      if chain.contains source.text then
        throw (.circularImport (chain ++ [source.text]))
      let some document := library.get? source.url
        | throw (.importNotFound source.url)
      let some component := document.findComponent source.component
        | throw (.importedComponentNotFound source)
      let importer := library.importFrom depth (chain ++ [source.text])
      let (copy, names, state) ← expandAs importer .fresh name component [] state
      return (copy, state.absorb document names)

/-- Replace all imported components of a model by their definitions. -/
def flatten (library : Library) (model : Model) : Except ModelFault Model := do
  if !model.hasImports then
    return model
  let importer := library.importFrom (library.componentCount + 1) []
  let state : Flattening :=
    { taken := model.preorder.map Component.name, connections := [], units := model.units }
  let (components, names, state) ← expandAll importer .keep model.components [] state
  return {
    schema := model.schema
    name := model.name
    units := state.units
    components
    connections := model.connections.filterMap (·.rename? names) ++ state.connections }

end Library

end ComponentModel
