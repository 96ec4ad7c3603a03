import ComponentModel.Equation.Arena
import ComponentModel.Equation.Reader

/-!
# Reading equations into an arena

An element of markup is read into an arena node by node. A node is added before its children are
read, with a link to the node that it is going to hang below; it is hung there when everything below
it has been read. What cannot be read adds no node, and its slot stays empty.
-/

namespace ComponentModel.Equation

/-- Add a node that links back to another one, though it does not hang anywhere yet. -/
def Arena.pushBelow (arena : Arena) (label : Label) (parent? : Option Nat) : Arena :=
  { arena with nodes := arena.nodes ++ [⟨label, none, none, parent?⟩] }

/-- An arena that an equation is being read into, with the variables mentioned so far. -/
structure Draft where
  arena : Arena
  mentions : List Mention
  deriving Repr, DecidableEq

/-- What has been read of one element: its node, if there is one, and the draft that holds it. -/
structure Drafted where
  node? : Option Nat
  draft : Draft
  deriving Repr, DecidableEq

/-- Hang what has been read, if anything, in a slot. -/
def Drafted.hang (drafted : Drafted) (slot : Slot) : Draft :=
  { drafted.draft with arena := drafted.draft.arena.setChild slot drafted.node? }

namespace Draft

/-- Nothing has been read yet. -/
def empty : Draft :=
  ⟨⟨[], none⟩, []⟩

/-- The number of the next node. -/
def next (draft : Draft) : Nat :=
  draft.arena.size

/-- Add a node. -/
def add (draft : Draft) (label : Label) (parent? : Option Nat) : Draft :=
  { draft with arena := draft.arena.pushBelow label parent? }

/-- Mention a variable. -/
def mention (draft : Draft) (mention : Mention) : Draft :=
  { draft with mentions := draft.mentions ++ [mention] }

/-- Nothing is read. -/
def absent (draft : Draft) : Drafted :=
  ⟨none, draft⟩

/-- A node without children is read. -/
def leaf (draft : Draft) (label : Label) (parent? : Option Nat) : Drafted :=
  ⟨some draft.next, draft.add label parent?⟩

/-- A reference by name is read. A name that is not declared is mentioned, but adds no node. -/
def name (draft : Draft) (declaration? : String → Option Nat) (role : Role)
    (parent? : Option Nat) (written : String) : Drafted :=
  match declaration? written with
  | some declaration =>
      (draft.mention (.declared role declaration)).leaf (.reference declaration) parent?
  | none => (draft.mention (.undeclared written)).absent

end Draft

mutual

/-- Read an element in a role, for a slot of a node. -/
def draftElement (declaration? : String → Option Nat) (outermost : Bool) (role : Role)
    (parent? : Option Nat) (draft : Draft) : Markup.Element → Drafted
  | .mk name attributes children text =>
      if name == "apply" then
        match children with
        | [] => draft.absent
        | operator :: arguments =>
            match Operator.ofElement? operator.name with
            | none => draft.absent
            | some operator =>
                draftArguments declaration? (applied outermost operator) (argumentRole operator)
                  parent? draft arguments
      else if name == "piecewise" then
        draftArguments declaration? .piecewise .plain parent? draft children
      else if name == "piece" then
        draftPair declaration? .piece .plain parent? draft children
      else if name == "bvar" then
        draftPair declaration? .bvar (boundRole role) parent? draft children
      else if name == "otherwise" then
        draftFirst declaration? .otherwise parent? draft children
      else if name == "degree" then
        draftFirst declaration? .degree parent? draft children
      else if name == "logbase" then
        draftFirst declaration? .logbase parent? draft children
      else if name == "ci" then
        draft.name declaration? role parent? (Text.trim text)
      else if name == "cn" then
        draft.leaf (.number (Read.numberText text
          (Markup.Element.textParts ⟨name, attributes, children, text⟩))) parent?
      else
        match Operator.ofElement? name with
        | some operator =>
            if operator.isConstant then draft.leaf (.operator operator) parent? else draft.absent
        | none => draft.absent

/-- Read the arguments of an operator; more than two nest to the right. -/
def draftArguments (declaration? : String → Option Nat) (operator : Operator) (role : Role)
    (parent? : Option Nat) (draft : Draft) (arguments : List Markup.Element) : Drafted :=
  let node := draft.next
  let start := draft.add (.operator operator) parent?
  match arguments with
  | [] => ⟨some node, start.absent.hang (.left node)⟩
  | [only] =>
      ⟨some node, (draftElement declaration? false role (some node) start only).hang (.left node)⟩
  | [first, second] =>
      let middle := (draftElement declaration? false role (some node) start first).hang (.left node)
      ⟨some node,
        (draftElement declaration? false role (some node) middle second).hang (.right node)⟩
  | first :: rest =>
      let middle := (draftElement declaration? false role (some node) start first).hang (.left node)
      ⟨some node,
        (draftArguments declaration? operator role (some node) middle rest).hang (.right node)⟩

/-- Read the first two elements of a list as the children of an operator. -/
def draftPair (declaration? : String → Option Nat) (operator : Operator) (role : Role)
    (parent? : Option Nat) (draft : Draft) (children : List Markup.Element) : Drafted :=
  let node := draft.next
  let start := draft.add (.operator operator) parent?
  match children with
  | [] => ⟨some node, (start.absent.hang (.left node)).absent.hang (.right node)⟩
  | [only] =>
      let middle := (draftElement declaration? false role (some node) start only).hang (.left node)
      ⟨some node, middle.absent.hang (.right node)⟩
  | first :: second :: _ =>
      let middle := (draftElement declaration? false role (some node) start first).hang (.left node)
      ⟨some node,
        (draftElement declaration? false role (some node) middle second).hang (.right node)⟩

/-- Read the first element of a list as the only child of an operator. -/
def draftFirst (declaration? : String → Option Nat) (operator : Operator)
    (parent? : Option Nat) (draft : Draft) (children : List Markup.Element) : Drafted :=
  let node := draft.next
  let start := draft.add (.operator operator) parent?
  match children with
  | [] => ⟨some node, start.absent.hang (.left node)⟩
  | first :: _ =>
      ⟨some node, (draftElement declaration? false .plain (some node) start first).hang (.left node)⟩

end

/-- Read an equation: the arena that holds it, if anything can be read, and the variables that it
mentions. -/
def draftEquation (declaration? : String → Option Nat) (element : Markup.Element) :
    Option Arena × List Mention :=
  let drafted := draftElement declaration? true .plain none .empty element
  (drafted.node?.map fun root => drafted.draft.arena.setRoot (some root), drafted.draft.mentions)

end ComponentModel.Equation
