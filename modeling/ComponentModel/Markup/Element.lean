import ComponentModel.Markup.Piece

/-!
# Elements of markup

The pieces of a text are nested into elements. Names are taken without their namespaces, and
namespace declarations are dropped. The text of an element is made of its own segments only; a
segment directly behind a `sep` element belongs to that element, so that a number in parts keeps
its parts apart.
-/

namespace ComponentModel.Markup

/-- Why a text has no elements. -/
inductive MathError where
  /-- The text is not well-formed. -/
  | malformed
  /-- The text ends inside an element. -/
  | unclosed (name : String)
  /-- An outermost element is not `math`. -/
  | notMath (name : String)
  deriving Repr, DecidableEq

/-- The message of a fault in markup. -/
def MathError.message : MathError → String
  | .malformed => "XML error"
  | .unclosed name => "Element '" ++ name ++ "' is not closed"
  | .notMath name => "Expected a 'math' element, found '" ++ name ++ "'"

/-- An element of markup. -/
structure Element where
  name : String
  attributes : List (String × String)
  children : List Element
  text : String
  deriving Repr

/-- The part of a name behind its namespace, that is behind the first colon. -/
def localName (name : String) : String :=
  match name.toList.dropWhile (fun character => character != ':') with
  | _ :: rest => String.ofList rest
  | [] => name

/-- Whether an attribute declares a namespace. -/
def declaresNamespace (name : String) : Bool :=
  localName name == "xmlns" || "xmlns:".toList.isPrefixOf name.toList

namespace Element

/-- An element without content, for the complete names of a tag. -/
def ofTag (name : String) (attributes : List (String × String)) : Element where
  name := localName name
  attributes := (attributes.filter fun entry => !declaresNamespace entry.1).map
    fun entry => (localName entry.1, entry.2)
  children := []
  text := ""

/-- Whether an element separates the parts of a number. -/
def isSeparator (element : Element) : Bool :=
  element.name == "sep"

/-- The value of the first attribute of a name. -/
def attribute? (element : Element) (name : String) : Option String :=
  element.attributes.lookup name

/-- Add a child behind the others. -/
def addChild (parent child : Element) : Element :=
  { parent with children := parent.children ++ [child] }

/-- Add a segment of text. Behind a separator it belongs to the separator. -/
def addText (element : Element) (segment : String) : Element :=
  match element.children.getLast? with
  | some last =>
      if last.isSeparator then
        { element with
          children := element.children.dropLast ++ [{ last with text := last.text ++ segment }] }
      else
        { element with text := element.text ++ segment }
  | none => { element with text := element.text ++ segment }

/-- The parts of a number: the text of the element, and that of each separator in it. -/
def textParts (element : Element) : List String :=
  element.text :: (element.children.filter isSeparator).map Element.text

end Element

/-- The elements read so far: those that are open, the innermost first and each with its complete
name, and the finished outermost ones. -/
structure Nesting where
  pending : List (String × Element)
  roots : List Element

namespace Nesting

/-- Put a finished element where it belongs. -/
def place (nesting : Nesting) (element : Element) : Nesting :=
  match nesting.pending with
  | (name, parent) :: rest => { nesting with pending := (name, parent.addChild element) :: rest }
  | [] => { nesting with roots := nesting.roots ++ [element] }

/-- Take in one piece. An end tag must bear the name of the innermost open element; text outside
all elements is left out. -/
def step (nesting : Nesting) : Piece → Option Nesting
  | .opening name attributes =>
      some { nesting with pending := (name, Element.ofTag name attributes) :: nesting.pending }
  | .empty name attributes => some (nesting.place (Element.ofTag name attributes))
  | .closing name =>
      match nesting.pending with
      | (opened, element) :: rest =>
          if opened == name then some (Nesting.place ⟨rest, nesting.roots⟩ element) else none
      | [] => none
  | .segment text =>
      match nesting.pending with
      | (name, element) :: rest =>
          some { nesting with pending := (name, element.addText text) :: rest }
      | [] => some nesting

/-- Take in pieces one after the other. -/
def run : Nesting → List Piece → Option Nesting
  | nesting, [] => some nesting
  | nesting, piece :: rest =>
      match nesting.step piece with
      | some next => next.run rest
      | none => none

end Nesting

/-- The outermost elements of a list of pieces. All of them must be `math`. -/
def Element.ofPieces (pieces : List Piece) : Except MathError (List Element) :=
  match (Nesting.mk [] []).run pieces with
  | none => .error .malformed
  | some ⟨(_, element) :: _, _⟩ => .error (.unclosed element.name)
  | some ⟨[], roots⟩ =>
      match roots.find? fun root => root.name != "math" with
      | some other => .error (.notMath other.name)
      | none => .ok roots

/-- The `math` elements of a text. -/
def readMath (text : String) : Except MathError (List Element) :=
  match pieces? text with
  | none => .error .malformed
  | some pieces => Element.ofPieces pieces

end ComponentModel.Markup
