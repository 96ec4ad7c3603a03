import ComponentModel.Analysis.Issue
import ComponentModel.Analysis.Ordering
import ComponentModel.Equation.Reader

/-!
# Gathering of equations and variables

The components of a model are visited in the order of the tree. The equations of a component come
first; each mention of a variable makes a record for its class. Then the declarations of the
component are met, and an initial value is taken over by the record of its class.
-/

namespace ComponentModel.Analysis

open Equation (Expr Mention)

/-- What has been gathered from a model so far. -/
structure Gathered where
  registry : Registry
  equations : List OrderedEquation
  issues : List Issue

/-- The references of an equation, without repetition and in the order of their first mention. -/
structure References where
  plain : List Nat
  differentiated : List Nat

namespace References

/-- Add a number behind others, unless it is among them. -/
def addNew (number : Nat) (numbers : List Nat) : List Nat :=
  if numbers.contains number then numbers else numbers ++ [number]

/-- Note a reference to a record. The bound variable of a derivative is no reference. -/
def note (references : References) (role : Equation.Role) (number : Nat) : References :=
  match role with
  | .plain => { references with plain := addNew number references.plain }
  | .differentiated =>
      { references with differentiated := addNew number references.differentiated }
  | .bound => references

end References

namespace Gathered

/-- Report an issue. -/
def report (gathered : Gathered) (issue : Issue) : Gathered :=
  { gathered with issues := gathered.issues ++ [issue] }

/-- Take in the mentions of an equation in the component of a name. -/
def mention (index : Index) (component : String) :
    Gathered × References → Mention → Gathered × References
  | (gathered, references), .undeclared name =>
      (gathered.report (.undefinedVariable ⟨component, name⟩), references)
  | (gathered, references), .declared role declaration =>
      let (number, registry) := gathered.registry.resolve index declaration
      ({ gathered with registry }, references.note role number)

/-- Take in an element of the math of a component, as an equation if anything can be read. -/
def addEquation (index : Index) (component : Nat) (name : String) (gathered : Gathered)
    (element : Markup.Element) : Gathered :=
  let (expr, mentions) := Equation.readEquation (index.lookup? component) element
  let (gathered, references) := mentions.foldl (mention index name) (gathered, ⟨[], []⟩)
  if expr.isPresent then
    { gathered with
      equations := gathered.equations ++
        [.new expr component references.plain references.differentiated] }
  else
    gathered

/-- Take in the math of a component. Math that cannot be read counts as none. -/
def addMath (index : Index) (number : Nat) (component : Component) (gathered : Gathered) :
    Gathered :=
  match component.math with
  | none => gathered
  | some text =>
      match Markup.readMath text with
      | .error _ => gathered
      | .ok roots =>
          (roots.flatMap Markup.Element.children).foldl (addEquation index number component.name)
            gathered

/-- Meet a declaration. A class takes over the first initial value that is met; a second one is an
issue. -/
def addDeclaration (index : Index) (gathered : Gathered) (declaration : Nat) : Gathered :=
  let (number, registry) := gathered.registry.resolve index declaration
  let gathered := { gathered with registry }
  let tracked := (registry.get number).declaration
  let initialised := (index.declaration declaration).isInitialised
  let trackedInitialised := (index.declaration tracked).isInitialised
  if initialised && !trackedInitialised then
    { gathered with registry := registry.change number (·.track declaration true) }
  else if declaration != tracked && initialised && trackedInitialised then
    gathered.report (.initialisedTwice (index.declaration declaration).fullName
      (index.declaration tracked).fullName)
  else
    gathered

/-- Visit the component of a number. -/
def visit (index : Index) (gathered : Gathered) (entry : Component × Nat) : Gathered :=
  (index.variablesOf entry.2).foldl (addDeclaration index)
    (addMath index entry.2 entry.1 gathered)

/-- Visit all components of a model. -/
def ofIndex (index : Index) : Gathered :=
  index.components.zipIdx.foldl (visit index) ⟨[], [], []⟩

end Gathered

end ComponentModel.Analysis
