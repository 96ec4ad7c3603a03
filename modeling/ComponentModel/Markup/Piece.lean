import ComponentModel.Text

/-!
# Pieces of markup

Markup text is cut into tags and text segments. Comments, processing instructions, character data
sections, a document type and character references leave no piece of their own, but they end the
segment in front of them. What is cut apart here is put together by `Element.ofPieces`.
-/

namespace ComponentModel.Markup

/-- A piece of markup. Names are complete, with any namespace in front. -/
inductive Piece where
  /-- A start tag. -/
  | opening (name : String) (attributes : List (String × String))
  /-- A tag of an element without content. -/
  | empty (name : String) (attributes : List (String × String))
  /-- An end tag. -/
  | closing (name : String)
  /-- Text up to the next tag, section or reference, without blanks at its ends. -/
  | segment (text : String)
  deriving Repr, DecidableEq

/-- Whether a character separates the parts of a tag. -/
def isSeparator (character : Char) : Bool :=
  character == ' ' || character == '\t' || character == '\n' || character == '\r'

/-- The characters in front of the first occurrence of `mark`, and those behind it. -/
def splitAtMark (mark : List Char) : List Char → Option (List Char × List Char)
  | [] => none
  | character :: rest =>
      if mark.isPrefixOf (character :: rest) then
        some ([], (character :: rest).drop mark.length)
      else
        (splitAtMark mark rest).map fun split => (character :: split.1, split.2)

/-- The content of a tag, up to the first `>` outside quotes, and the characters behind it.
`quote` is the quotation mark that is open. -/
def splitTag (quote : Option Char) : List Char → Option (List Char × List Char)
  | [] => none
  | character :: rest =>
      if quote.isNone && character == '>' then
        some ([], rest)
      else
        let quote := match quote with
          | some mark => if character == mark then none else some mark
          | none => if character == '"' || character == '\'' then some character else none
        (splitTag quote rest).map fun split => (character :: split.1, split.2)

/-- The content of a document type, up to the `>` that balances `depth` open `<`. -/
def splitBalanced (depth : Nat) : List Char → Option (List Char × List Char)
  | [] => none
  | '>' :: rest =>
      match depth with
      | 0 => some ([], rest)
      | depth + 1 => (splitBalanced depth rest).map fun split => ('>' :: split.1, split.2)
  | '<' :: rest => (splitBalanced (depth + 1) rest).map fun split => ('<' :: split.1, split.2)
  | character :: rest =>
      (splitBalanced depth rest).map fun split => (character :: split.1, split.2)

/-- One attribute `name = "value"` at the front, with the characters behind it. The value is kept
as it is written. -/
def readAttribute : List Char → Option ((String × String) × List Char)
  | [] => none
  | first :: rest =>
      let (name, rest) := rest.span fun character => character != '=' && !isSeparator character
      match rest.dropWhile isSeparator with
      | '=' :: rest =>
          match rest.dropWhile isSeparator with
          | mark :: rest =>
              if mark == '"' || mark == '\'' then
                (splitAtMark [mark] rest).map fun split =>
                  ((String.ofList (first :: name), String.ofList split.1), split.2)
              else
                none
          | [] => none
      | _ => none

/-- All attributes of a tag. Every step takes at least one character, so as many steps as there
are characters suffice. -/
def readAttributes : (steps : Nat) → List Char → Option (List (String × String))
  | 0, characters => if characters.all isSeparator then some [] else none
  | steps + 1, characters =>
      match characters.dropWhile isSeparator with
      | [] => some []
      | rest => do
          let (first, rest) ← readAttribute rest
          let attributes ← readAttributes steps rest
          return first :: attributes

/-- The attributes of a tag, no name of them repeated. -/
def attributes? (characters : List Char) : Option (List (String × String)) := do
  let attributes ← readAttributes characters.length characters
  let names := attributes.map Prod.fst
  if names.eraseDups.length == names.length then some attributes else none

/-- The piece of a start tag with the given content. -/
def tagPiece (content : List Char) : Option Piece :=
  let isEmpty := content.getLast? == some '/'
  let content := if isEmpty then content.dropLast else content
  let (name, rest) := content.span fun character => !isSeparator character
  (attributes? rest).map fun attributes =>
    if isEmpty then .empty (String.ofList name) attributes
    else .opening (String.ofList name) attributes

/-- The piece of an end tag with the given content. Separators behind the name are dropped; a
content of separators alone is a name. -/
def endPiece (content : List Char) : Piece :=
  let name := (content.reverse.dropWhile isSeparator).reverse
  .closing (String.ofList (if name.isEmpty then content else name))

/-- Skip what starts with `<!`: a comment, a character data section or a document type. -/
def skipDeclaration (characters : List Char) : Option (List Char) :=
  match characters with
  | '-' :: '-' :: rest => (splitAtMark "-->".toList rest).map Prod.snd
  | '[' :: rest =>
      if "CDATA[".toList.isPrefixOf rest then
        (splitAtMark "]]>".toList (rest.drop 6)).map Prod.snd
      else
        none
  | _ => do
      let (content, rest) ← splitBalanced 0 characters
      let keyword := (content.take 7).map Char.toUpper
      if keyword == "DOCTYPE".toList && !(content.drop 7).all isSeparator then some rest else none

/-- Whether a character ends a text segment. -/
def endsSegment (character : Char) : Bool :=
  character == '<' || character == '&'

/-- The piece at the front of a list of characters, if what stands there leaves one, and the
characters behind it. -/
def scanPiece : List Char → Option (Option Piece × List Char)
  | '<' :: '!' :: rest => (skipDeclaration rest).map fun rest => (none, rest)
  | '<' :: '?' :: '>' :: _ => none
  | '<' :: '?' :: rest => (splitAtMark "?>".toList rest).map fun split => (none, split.2)
  | '<' :: '/' :: rest => (splitTag none rest).map fun split => (some (endPiece split.1), split.2)
  | '<' :: rest => do
      let (content, rest) ← splitTag none rest
      let piece ← tagPiece content
      return (some piece, rest)
  | '&' :: rest =>
      match rest.span fun character => character != ';' && !endsSegment character with
      | (_, ';' :: rest) => some (none, rest)
      | _ => none
  | characters =>
      let (segment, rest) := characters.span fun character => !endsSegment character
      some (some (.segment (String.ofList (Text.trimChars segment))), rest)

/-- Cut characters into pieces. Every step takes at least one character. -/
def scanPieces : (steps : Nat) → List Char → Option (List Piece)
  | _, [] => some []
  | 0, _ :: _ => none
  | steps + 1, character :: rest => do
      let (piece, rest) ← scanPiece (character :: rest)
      let pieces ← scanPieces steps rest
      return piece.toList ++ pieces

/-- The pieces of a text; none if the text is malformed. -/
def pieces? (text : String) : Option (List Piece) :=
  let characters := text.toList
  scanPieces characters.length characters

end ComponentModel.Markup
