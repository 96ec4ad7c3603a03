import ComponentModel.Decimal.Layout
import ComponentModel.Json.Value

/-!
# Writing documents

Documents are written with one entry a line, indented by two spaces a level, and one space behind
each colon. Empty arrays and objects are closed at once.
-/

namespace ComponentModel.Json

/-- The number in a document. -/
def Number.write : Number → String
  | .integer value => (if value < 0 then "-" else "") ++ Decimal.digitText value.natAbs
  | .real value => Decimal.documented.write value

/-- A lower-case hexadecimal digit. -/
def hexDigit (value : Nat) : Char :=
  Char.ofNat (if value < 10 then '0'.toNat + value else 'a'.toNat + (value - 10))

/-- A character inside a written string. -/
def escape (character : Char) : List Char :=
  match character with
  | '"' => ['\\', '"']
  | '\\' => ['\\', '\\']
  | '\x08' => ['\\', 'b']
  | '\x0c' => ['\\', 'f']
  | '\n' => ['\\', 'n']
  | '\r' => ['\\', 'r']
  | '\t' => ['\\', 't']
  | _ =>
      if character.toNat < 0x20 then
        ['\\', 'u', '0', '0', hexDigit (character.toNat / 16), hexDigit (character.toNat % 16)]
      else
        [character]

/-- A string with its quotes. -/
def quoted (text : String) : String :=
  String.ofList ('"' :: (text.toList.flatMap escape ++ ['"']))

/-- A line break and the blanks in front of a line of the given depth. -/
def newLine (depth : Nat) : String :=
  String.ofList ('\n' :: List.replicate (2 * depth) ' ')

namespace Value

mutual

/-- A value inside a document, its own lines `depth` levels deep. -/
def write (depth : Nat) : Value → String
  | .null => "null"
  | .bool value => if value then "true" else "false"
  | .number value => value.write
  | .string value => quoted value
  | .array [] => "[]"
  | .array (item :: rest) =>
      "[" ++ newLine (depth + 1) ++ item.write (depth + 1) ++ writeItems (depth + 1) rest ++
        newLine depth ++ "]"
  | .object [] => "\x7b\x7d"
  | .object ((key, value) :: rest) =>
      "\x7b" ++ newLine (depth + 1) ++ quoted key ++ ": " ++ value.write (depth + 1) ++
        writeEntries (depth + 1) rest ++ newLine depth ++ "\x7d"

/-- The items behind the first one. -/
def writeItems (depth : Nat) : List Value → String
  | [] => ""
  | item :: rest => "," ++ newLine depth ++ item.write depth ++ writeItems depth rest

/-- The entries behind the first one. -/
def writeEntries (depth : Nat) : List (String × Value) → String
  | [] => ""
  | (key, value) :: rest =>
      "," ++ newLine depth ++ quoted key ++ ": " ++ value.write depth ++ writeEntries depth rest

end

/-- The text of a document. -/
def pretty (value : Value) : String :=
  value.write 0

end Value

end ComponentModel.Json
