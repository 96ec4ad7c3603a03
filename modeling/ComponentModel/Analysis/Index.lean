import ComponentModel.Analysis.Forest
import ComponentModel.Model.Basic

/-!
# The declarations of a model

Components are numbered in the order of the tree, parents before their children, and every
declared variable is numbered in the order of the components. The connections of a model make
declarations equivalent; the smallest declaration of a class stands for it.
-/

namespace ComponentModel.Analysis

/-- A variable as a component declares it. -/
structure Declared where
  component : String
  name : String
  units : String
  initialValue : Option InitialValue
  deriving Repr

/-- Whether a declaration carries an initial value. -/
def Declared.isInitialised (declared : Declared) : Bool :=
  declared.initialValue.isSome

/-- The declarations of a component. -/
def declaredBy (component : Component) : List Declared :=
  component.declarations.map fun declared =>
    ⟨component.name, declared.name, declared.units, declared.initialValue⟩

/-- The numbers of sibling components, the first of them being `first`. -/
def siblingIds : (first : Nat) → List Component → List Nat
  | _, [] => []
  | first, component :: rest => first :: siblingIds (first + component.preorder.length) rest

/-- The numbers of the children of components that are numbered from `first`. -/
def childIds : (first : Nat) → List Component → List (List Nat)
  | _, [] => []
  | first, component :: rest =>
      siblingIds (first + 1) component.components :: childIds (first + 1) rest

/-- The number of the first declaration of each component, counted from `first`. -/
def offsetsFrom : (first : Nat) → List Component → List Nat
  | _, [] => []
  | first, component :: rest => first :: offsetsFrom (first + component.declarations.length) rest

/-- The number of declarations of a component and of all components inside it. -/
def declarationCount (component : Component) : Nat :=
  (component.preorder.flatMap Component.declarations).length

mutual

/-- The first accepted declaration of a component, searched depth first, where its declarations
are numbered from `first`. -/
def firstDeclaration (accept : Nat → Bool) (first : Nat) : Component → Option Nat
  | .mk _ declarations _ components _ =>
      ((List.range' first declarations.length).find? accept).orElse fun _ =>
        firstDeclarationAmong accept (first + declarations.length) components

/-- The first accepted declaration of sibling components. -/
def firstDeclarationAmong (accept : Nat → Bool) (first : Nat) : List Component → Option Nat
  | [] => none
  | component :: rest =>
      (firstDeclaration accept first component).orElse fun _ =>
        firstDeclarationAmong accept (first + declarationCount component) rest

end

/-- The numbered declarations of a model and their classes. -/
structure Index where
  /-- The outermost components. -/
  trees : List Component
  /-- All components by number. -/
  components : List Component
  /-- The children of each component. -/
  children : List (List Nat)
  /-- The outermost components by number. -/
  roots : List Nat
  declarations : List Declared
  /-- The first declaration of each component. -/
  offsets : List Nat
  /-- The representative of the class of each declaration. -/
  classes : List Nat

namespace Index

/-- The numbered declarations of a tree of components, without any equivalences. -/
def ofTrees (trees : List Component) : Index :=
  let components := Component.preorderAll trees
  let declarations := components.flatMap declaredBy
  { trees
    components
    children := childIds 0 components
    roots := siblingIds 0 trees
    declarations
    offsets := offsetsFrom 0 components
    classes := List.range declarations.length }

/-- The number of the first component of a name. -/
def componentId? (index : Index) (name : String) : Option Nat :=
  index.components.findIdx? fun component => component.name == name

/-- The declaration of a name in the component of a number. -/
def lookup? (index : Index) (component : Nat) (name : String) : Option Nat := do
  let declaring ← index.components[component]?
  let offset ← index.offsets[component]?
  let place ← declaring.variableIndex? name
  return offset + place

/-- The declarations of the component of a number. -/
def variablesOf (index : Index) (component : Nat) : List Nat :=
  match index.offsets[component]?, index.components[component]? with
  | some offset, some declaring => List.range' offset declaring.declarations.length
  | _, _ => []

/-- The pairs of declarations that a connection makes equivalent. Names that are not declared are
passed over. -/
def pairsOf (index : Index) (connection : Connection) : List (Nat × Nat) :=
  match index.componentId? connection.first, index.componentId? connection.second with
  | some first, some second =>
      connection.pairs.filterMap fun pair =>
        match index.lookup? first pair.first, index.lookup? second pair.second with
        | some one, some other => some (one, other)
        | _, _ => none
  | _, _ => []

/-- The declarations of a model, those of all declared pairs united. -/
def united (index : Index) (connections : List Connection) : Forest :=
  (connections.flatMap index.pairsOf).foldl Forest.unite (.single index.declarations.length)

/-- The numbered declarations of a model. -/
def ofModel (model : Model) : Index :=
  let index := ofTrees model.components
  { index with
    classes := (index.united model.connections).roots (List.range index.declarations.length) }

/-- A declaration by its number. -/
def declaration (index : Index) (number : Nat) : Declared :=
  index.declarations.getD number ⟨"", "", "", none⟩

/-- The representative of the class of a declaration. -/
def classOf (index : Index) (number : Nat) : Nat :=
  index.classes.getD number number

/-- Whether two declarations are the same variable. -/
def equivalent (index : Index) (one other : Nat) : Bool :=
  index.classOf one == index.classOf other

/-- The first declaration equivalent to one, searched depth first in the component of a number. -/
def firstOccurrence? (index : Index) (number component : Nat) : Option Nat := do
  let tree ← index.components[component]?
  let offset ← index.offsets[component]?
  firstDeclaration (index.equivalent number) offset tree

/-- The first declaration of the whole model that is equivalent to one. -/
def firstOfModel? (index : Index) (number : Nat) : Option Nat :=
  firstDeclarationAmong (index.equivalent number) 0 index.trees

end Index

end ComponentModel.Analysis
