/-!
# Texts

The white space of the Unicode standard: twenty-five characters, which is more than the four
that `Char.isWhitespace` knows. Blank texts, trimmed names and the text segments of markup are
all read with this set.

A template is a text with placeholders such as `<CODE>`. Filling one placeholder replaces every
occurrence of it, found from left to right and without overlap; the value put in is not searched
again. Several placeholders are filled one after the other, so a value may hold a later one.
-/

namespace ComponentModel.Text

/-! ## Blank characters -/

/-- Whether a character has the Unicode property White_Space. -/
def isBlank (character : Char) : Bool :=
  let code := character.toNat
  (9 ≤ code && code ≤ 13) || code == 0x20 || code == 0x85 || code == 0xA0 || code == 0x1680 ||
    (0x2000 ≤ code && code ≤ 0x200A) || code == 0x2028 || code == 0x2029 || code == 0x202F ||
    code == 0x205F || code == 0x3000

/-- A list of characters without the blanks at its two ends. -/
def trimChars (characters : List Char) : List Char :=
  ((characters.dropWhile isBlank).reverse.dropWhile isBlank).reverse

/-- A text without the blanks at its two ends. -/
def trim (text : String) : String :=
  String.ofList (trimChars text.toList)

/-- Whether a text consists of blanks only. -/
def blank (text : String) : Bool :=
  text.toList.all isBlank

/-! ## Templates -/

/-- Replace every occurrence of `placeholder`, reading from the left. The counter `skip` is the
number of characters of the occurrence found last that are still to be dropped. -/
def fillChars (placeholder value : List Char) : (skip : Nat) → List Char → List Char
  | _, [] => []
  | skip + 1, _ :: rest => fillChars placeholder value skip rest
  | 0, character :: rest =>
      if placeholder.isPrefixOf (character :: rest) then
        value ++ fillChars placeholder value (placeholder.length - 1) rest
      else
        character :: fillChars placeholder value 0 rest

/-- The template with every occurrence of the (non-empty) placeholder replaced by the value. -/
def fill (template placeholder value : String) : String :=
  String.ofList (fillChars placeholder.toList value.toList 0 template.toList)

/-- Fill several placeholders, one after the other. -/
def fillAll (template : String) (values : List (String × String)) : String :=
  values.foldl (fun text entry => fill text entry.1 entry.2) template

end ComponentModel.Text
