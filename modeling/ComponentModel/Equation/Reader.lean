import ComponentModel.Equation.Expr
import ComponentModel.Markup.Element

/-!
# Reading equations

An element of markup is read into an expression, together with the variables that it mentions in
the order in which they are met. Names are looked up by a function, which is the view that a
component has of its variables. What cannot be read is absent; a name that is not declared leaves
no node, but it is mentioned.
-/

namespace ComponentModel.Equation

/-- How a variable is referred to. -/
inductive Role where
  | plain
  /-- As an argument of a derivative. -/
  | differentiated
  /-- As the bound variable of a derivative. -/
  | bound
  deriving Repr, DecidableEq

/-- A variable that an equation refers to. -/
inductive Mention where
  | declared (role : Role) (declaration : Nat)
  | undeclared (name : String)
  deriving Repr, DecidableEq

/-- An expression with the variables it mentions. -/
abbrev Read := Expr × List Mention

namespace Read

/-- Nothing to read. -/
def absent : Read := (.absent, [])

/-- An operator on what has been read for its children. -/
def apply (operator : Operator) (left right : Read) : Read :=
  (.apply operator left.1 right.1, left.2 ++ right.2)

/-- A reference by name. -/
def name (declaration? : String → Option Nat) (role : Role) (written : String) : Read :=
  match declaration? written with
  | some declaration => (.reference declaration, [.declared role declaration])
  | none => (.absent, [.undeclared written])

/-- The text of a number. A number in two parts has a mantissa and an exponent. -/
def numberText (text : String) (parts : List String) : String :=
  match parts with
  | mantissa :: exponent :: _ => Text.trim mantissa ++ "e" ++ Text.trim exponent
  | _ => Text.trim text

end Read

/-- The role of the arguments of an operator. -/
def argumentRole (operator : Operator) : Role :=
  if operator == .diff then .differentiated else .plain

/-- The role inside a bound variable. -/
def boundRole (role : Role) : Role :=
  if role == .differentiated then .bound else .plain

/-- The operator of an application. Outermost equality is an assignment. -/
def applied (outermost : Bool) (operator : Operator) : Operator :=
  if outermost && operator == .equal then .assignment else operator

mutual

/-- Read an element in a role. -/
def readElement (declaration? : String → Option Nat) (outermost : Bool) (role : Role) :
    Markup.Element → Read
  | .mk name attributes children text =>
      if name == "apply" then
        match children with
        | [] => .absent
        | operator :: arguments =>
            match Operator.ofElement? operator.name with
            | none => .absent
            | some operator =>
                readArguments declaration? (applied outermost operator) (argumentRole operator)
                  arguments
      else if name == "piecewise" then
        readArguments declaration? .piecewise .plain children
      else if name == "piece" then
        readPair declaration? .piece .plain children
      else if name == "bvar" then
        readPair declaration? .bvar (boundRole role) children
      else if name == "otherwise" then
        readFirst declaration? .otherwise children
      else if name == "degree" then
        readFirst declaration? .degree children
      else if name == "logbase" then
        readFirst declaration? .logbase children
      else if name == "ci" then
        .name declaration? role (Text.trim text)
      else if name == "cn" then
        (.number (Read.numberText text
          (Markup.Element.textParts ⟨name, attributes, children, text⟩)), [])
      else
        match Operator.ofElement? name with
        | some operator => if operator.isConstant then (.leaf operator, []) else .absent
        | none => .absent

/-- Read the arguments of an operator; more than two nest to the right. -/
def readArguments (declaration? : String → Option Nat) (operator : Operator) (role : Role) :
    List Markup.Element → Read
  | [] => .apply operator .absent .absent
  | [only] => .apply operator (readElement declaration? false role only) .absent
  | [first, second] =>
      .apply operator (readElement declaration? false role first)
        (readElement declaration? false role second)
  | first :: rest =>
      .apply operator (readElement declaration? false role first)
        (readArguments declaration? operator role rest)

/-- Read the first two elements of a list as the children of an operator. -/
def readPair (declaration? : String → Option Nat) (operator : Operator) (role : Role) :
    List Markup.Element → Read
  | [] => .apply operator .absent .absent
  | [only] => .apply operator (readElement declaration? false role only) .absent
  | first :: second :: _ =>
      .apply operator (readElement declaration? false role first)
        (readElement declaration? false role second)

/-- Read the first element of a list as the only child of an operator. -/
def readFirst (declaration? : String → Option Nat) (operator : Operator) :
    List Markup.Element → Read
  | [] => .apply operator .absent .absent
  | first :: _ => .apply operator (readElement declaration? false .plain first) .absent

end

/-- Read an equation. -/
def readEquation (declaration? : String → Option Nat) (element : Markup.Element) : Read :=
  readElement declaration? true .plain element

end ComponentModel.Equation
