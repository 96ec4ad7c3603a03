import ComponentModel.Equation.Scaling

/-!
# Expressions in an arena

An expression that is rewritten in place is kept in an arena: a list of nodes that refer to their
children and to their parent by number. Nodes are added at the end of the list and never taken away.
References are scaled one node after the other, in the sequence in which the nodes of the expression
stood below each other before the first of them was looked at.
-/

namespace ComponentModel.Equation

/-- What a node is, its children apart. -/
inductive Label where
  | reference (declaration : Nat)
  | number (text : String)
  | operator (operator : Operator)
  deriving Repr, DecidableEq

/-- A node of an arena, with the numbers of the nodes next to it. -/
structure Node where
  label : Label
  left : Option Nat
  right : Option Nat
  parent : Option Nat
  deriving Repr, DecidableEq

/-- Nodes by number, and the root of the expression that they make up. -/
structure Arena where
  nodes : List Node
  root : Option Nat
  deriving Repr, DecidableEq

/-- A place where an expression hangs: at the root, or on one side of a node. -/
inductive Slot where
  | root
  | left (parent : Nat)
  | right (parent : Nat)
  deriving Repr, DecidableEq

/-- The node that a slot belongs to. -/
def Slot.parent? : Slot → Option Nat
  | root => none
  | left parent => some parent
  | right parent => some parent

namespace Arena

/-- The number of nodes, whether or not they can be reached. -/
def size (arena : Arena) : Nat :=
  arena.nodes.length

def label? (arena : Arena) (node : Nat) : Option Label :=
  arena.nodes[node]?.map Node.label

def left? (arena : Arena) (node : Nat) : Option Nat :=
  arena.nodes[node]?.bind Node.left

def right? (arena : Arena) (node : Nat) : Option Nat :=
  arena.nodes[node]?.bind Node.right

def parent? (arena : Arena) (node : Nat) : Option Nat :=
  arena.nodes[node]?.bind Node.parent

/-- What hangs in a slot. -/
def child? (arena : Arena) : Slot → Option Nat
  | .root => arena.root
  | .left parent => arena.left? parent
  | .right parent => arena.right? parent

/-- Add a node that is not linked to any other. Its number is the size before. -/
def push (arena : Arena) (label : Label) : Arena :=
  { arena with nodes := arena.nodes ++ [⟨label, none, none, none⟩] }

/-- Change the node of a number. -/
def change (arena : Arena) (node : Nat) (update : Node → Node) : Arena :=
  { arena with nodes := arena.nodes.modify node update }

/-- Let a node, if there is one, have a parent or none. -/
def setParent (arena : Arena) (node? parent? : Option Nat) : Arena :=
  match node? with
  | some node => arena.change node fun node => { node with parent := parent? }
  | none => arena

def setLeft (arena : Arena) (node : Nat) (child? : Option Nat) : Arena :=
  (arena.change node fun node => { node with left := child? }).setParent child? (some node)

def setRight (arena : Arena) (node : Nat) (child? : Option Nat) : Arena :=
  (arena.change node fun node => { node with right := child? }).setParent child? (some node)

def setRoot (arena : Arena) (root? : Option Nat) : Arena :=
  setParent { arena with root := root? } root? none

/-- Hang a node in a slot, or none. -/
def setChild (arena : Arena) (slot : Slot) (child? : Option Nat) : Arena :=
  match slot with
  | .root => arena.setRoot child?
  | .left parent => arena.setLeft parent child?
  | .right parent => arena.setRight parent child?

/-- Add a node with a label and hang it in a slot. -/
def pushAt (arena : Arena) (slot : Slot) (label : Label) : Arena :=
  (arena.push label).setChild slot (some arena.size)

/-- Add the nodes of an expression and hang them in an empty slot, parents before their children. -/
def addAt (arena : Arena) (slot : Slot) : Expr → Arena
  | .absent => arena
  | .reference declaration => arena.pushAt slot (.reference declaration)
  | .number text => arena.pushAt slot (.number text)
  | .apply operator left right =>
      ((arena.pushAt slot (.operator operator)).addAt (.left arena.size) left).addAt
        (.right arena.size) right

/-- An arena that holds nothing but an expression. -/
def ofExpr (expr : Expr) : Arena :=
  addAt ⟨[], none⟩ .root expr

/-- Put a node where another one hangs. -/
def replace (arena : Arena) (old new : Nat) : Arena :=
  match arena.parent? old with
  | some parent =>
      if arena.left? parent == some old then arena.setLeft parent (some new)
      else arena.setRight parent (some new)
  | none => arena.setRoot (some new)

/-- The nodes at and below a node, children before their parent, `depth` levels down at most. -/
def nodesBelow (arena : Arena) : (depth : Nat) → (node? : Option Nat) → List Nat
  | 0, _ => []
  | _ + 1, none => []
  | depth + 1, some node =>
      arena.nodesBelow depth (arena.left? node) ++ arena.nodesBelow depth (arena.right? node) ++
        [node]

/-- The nodes of the expression, children before their parent. An expression is at most as deep as
there are nodes. -/
def postOrder (arena : Arena) : List Nat :=
  arena.nodesBelow arena.size arena.root

/-- Take nodes off a stack, `steps` of them at most. The children of each take its place, the left
one on top. -/
def nodesOff (arena : Arena) : (steps : Nat) → (stack : List Nat) → List Nat
  | 0, _ => []
  | _ + 1, [] => []
  | steps + 1, node :: stack =>
      node :: arena.nodesOff steps
        ((arena.left? node).toList ++ (arena.right? node).toList ++ stack)

/-- The nodes of the expression, parents before their children. -/
def preOrder (arena : Arena) : List Nat :=
  arena.nodesOff arena.size arena.root.toList

/-- The expression at a node, `depth` levels down at most. -/
def exprAt (arena : Arena) : (depth : Nat) → (node? : Option Nat) → Expr
  | 0, _ => .absent
  | _ + 1, none => .absent
  | depth + 1, some node =>
      match arena.label? node with
      | some (.reference declaration) => .reference declaration
      | some (.number text) => .number text
      | some (.operator operator) =>
          .apply operator (arena.exprAt depth (arena.left? node))
            (arena.exprAt depth (arena.right? node))
      | none => .absent

/-- The expression that an arena holds. -/
def expr (arena : Arena) : Expr :=
  arena.exprAt arena.size arena.root

/-! ## Scaling in place -/

/-- Multiply the expression at a node by a factor. -/
def wrap (arena : Arena) (node : Nat) (factor : String) : Arena :=
  let times := arena.size
  let scale := times + 1
  let arena := (arena.push (.operator .times)).push (.number factor)
  ((arena.replace node times).setLeft times (some scale)).setRight times (some node)

/-- Multiply what stands on the right of a node by a factor. -/
def wrapRight (arena : Arena) (node : Nat) (factor : String) : Arena :=
  let times := arena.size
  let scale := times + 1
  let other := arena.right? node
  let arena := (arena.push (.operator .times)).push (.number factor)
  ((arena.setLeft times (some scale)).setRight times other).setRight node (some times)

/-- The assignment that a node is the left-hand side of. -/
def assignment? (arena : Arena) (node : Nat) : Option Nat :=
  (arena.parent? node).filter fun parent =>
    arena.label? parent == some (.operator .assignment) && arena.left? parent == some node

/-- The factor of the bound variable of the derivative at a node. -/
def rateFactor (rule : FactorRule) (arena : Arena) (node : Nat) : Option Factor :=
  match ((arena.left? node).bind arena.left?).bind arena.label? with
  | some (.reference bound) => rule bound
  | _ => none

/-- Divide the derivative at a node by a factor, or multiply what is assigned to it. -/
def divide (arena : Arena) (node : Nat) (factor : Factor) : Arena :=
  match arena.assignment? node with
  | some assignment => arena.wrapRight assignment factor.text
  | none => arena.wrap node factor.reciprocal

/-- Scale the derivative at a node by the units of its bound variable. -/
def scaleRate (rule : FactorRule) (arena : Arena) (node : Nat) : Arena :=
  match arena.rateFactor rule node with
  | some factor => arena.divide node factor
  | none => arena

/-- Scale the node of a number, if it is a reference. A reference directly inside a derivative
scales the derivative instead, and one directly inside a bound variable is kept. -/
def scaleNode (rule : FactorRule) (arena : Arena) (node : Nat) : Arena :=
  match arena.label? node with
  | some (.reference declaration) =>
      match arena.parent? node, (arena.parent? node).bind arena.label? with
      | some parent, some (.operator .diff) => arena.scaleRate rule parent
      | some _, some (.operator .bvar) => arena
      | _, _ =>
          match rule declaration with
          | some factor => arena.wrap node factor.text
          | none => arena
  | _ => arena

/-- Scale all references of the expression. -/
def scale (rule : FactorRule) (arena : Arena) : Arena :=
  arena.postOrder.foldl (scaleNode rule) arena

end Arena

/-- An expression with all references scaled in place. -/
def Expr.scaledInPlace (rule : FactorRule) (expr : Expr) : Expr :=
  ((Arena.ofExpr expr).scale rule).expr

end ComponentModel.Equation
