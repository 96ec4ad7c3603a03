import ComponentModel.Analysis.Index

/-!
# Numbering components one by one

Components are taken in one after the other, each before those inside it. A component gets the next
number, and its declarations follow those that are there already. It is linked to its parent once
everything inside it has been taken in, so that the links of a component grow while others are added
behind it.
-/

namespace ComponentModel.Analysis

/-- The components that have been taken in, with their links and their declarations. -/
structure Numbering where
  /-- The components by number. -/
  components : List Component
  /-- The children that have been linked to each component. -/
  children : List (List Nat)
  /-- The outermost components by number. -/
  roots : List Nat
  declarations : List Declared
  /-- The first declaration of each component. -/
  offsets : List Nat
  deriving Repr

namespace Numbering

/-- Nothing has been taken in yet. -/
def empty : Numbering :=
  ⟨[], [], [], [], []⟩

/-- The number of the next component. -/
def next (numbering : Numbering) : Nat :=
  numbering.components.length

/-- Take in a component without those inside it. -/
def add (numbering : Numbering) (component : Component) : Numbering :=
  { numbering with
    components := numbering.components ++ [component]
    children := numbering.children ++ [[]]
    declarations := numbering.declarations ++ declaredBy component
    offsets := numbering.offsets ++ [numbering.declarations.length] }

/-- Link a component to its parent, behind those that are linked to it already. -/
def link (numbering : Numbering) (parent child : Nat) : Numbering :=
  { numbering with children := numbering.children.modify parent (· ++ [child]) }

/-- Note a component as an outermost one. -/
def addRoot (numbering : Numbering) (root : Nat) : Numbering :=
  { numbering with roots := numbering.roots ++ [root] }

mutual

/-- Take in a component and everything inside it. The number of the component comes first. -/
def addTree (numbering : Numbering) : Component → Nat × Numbering
  | .mk name declarations math components source =>
      let number := numbering.next
      let numbering := numbering.add (.mk name declarations math components source)
      (number, addInside number numbering components)

/-- Take in the components inside a parent, one after the other. -/
def addInside (parent : Nat) (numbering : Numbering) : List Component → Numbering
  | [] => numbering
  | component :: rest =>
      let (child, numbering) := numbering.addTree component
      addInside parent (numbering.link parent child) rest

end

/-- Take in outermost components, one after the other. -/
def addRoots (numbering : Numbering) : List Component → Numbering
  | [] => numbering
  | component :: rest =>
      let (root, numbering) := numbering.addTree component
      addRoots (numbering.addRoot root) rest

/-- The numbering of the components of trees. -/
def ofTrees (trees : List Component) : Numbering :=
  addRoots .empty trees

end Numbering

/-- The numbering that an index holds. -/
def Index.numbering (index : Index) : Numbering where
  components := index.components
  children := index.children
  roots := index.roots
  declarations := index.declarations
  offsets := index.offsets

end ComponentModel.Analysis
