import ComponentModel.Decimal.Numeral
import ComponentModel.Json.Value

/-!
# Tokens of a document

A JSON text is a sequence of tokens with blanks between them. The scanner is strict: the four
JSON blanks only, no control character inside a string, no lone surrogate escape, no leading
zero, and no number beyond the range of doubles.
-/

namespace ComponentModel.Json

/-- A token of a document. -/
inductive Token where
  | arrayOpen
  | arrayClose
  | objectOpen
  | objectClose
  | comma
  | colon
  | null
  | bool (value : Bool)
  | number (value : Number)
  | string (value : String)
  deriving Repr

/-- The value of a hexadecimal digit. -/
def hexDigit? (digit : Char) : Option Nat :=
  if digit.isDigit then some (digit.toNat - '0'.toNat)
  else if 'a' ≤ digit && digit ≤ 'f' then some (digit.toNat - 'a'.toNat + 10)
  else if 'A' ≤ digit && digit ≤ 'F' then some (digit.toNat - 'A'.toNat + 10)
  else none

/-- The value of four hexadecimal digits. -/
def hexUnit? (first second third fourth : Char) : Option Nat := do
  let first ← hexDigit? first
  let second ← hexDigit? second
  let third ← hexDigit? third
  let fourth ← hexDigit? fourth
  return ((first * 16 + second) * 16 + third) * 16 + fourth

/-- The character of a one-letter escape. -/
def escaped? : Char → Option Char
  | '"' => some '"'
  | '\\' => some '\\'
  | '/' => some '/'
  | 'b' => some '\x08'
  | 'f' => some '\x0c'
  | 'n' => some '\n'
  | 'r' => some '\r'
  | 't' => some '\t'
  | _ => none

/-- Whether a unit is the first half of a pair of surrogates. -/
def isHighSurrogate (code : Nat) : Bool :=
  0xD800 ≤ code && code < 0xDC00

/-- Whether a unit is the second half of a pair of surrogates. -/
def isLowSurrogate (code : Nat) : Bool :=
  0xDC00 ≤ code && code < 0xE000

/-- Read a string up to its closing quote. `high` is the first half of a pair of surrogates whose
second half must follow. -/
def scanString (high : Option Nat) : List Char → Option (List Char × List Char)
  | [] => none
  | '\\' :: 'u' :: first :: second :: third :: fourth :: rest =>
      match hexUnit? first second third fourth, high with
      | none, _ => none
      | some code, some half =>
          if isLowSurrogate code then
            (scanString none rest).map fun read =>
              (Char.ofNat (0x10000 + (half - 0xD800) * 0x400 + (code - 0xDC00)) :: read.1, read.2)
          else
            none
      | some code, none =>
          if isHighSurrogate code then scanString (some code) rest
          else if isLowSurrogate code then none
          else (scanString none rest).map fun read => (Char.ofNat code :: read.1, read.2)
  | '\\' :: mark :: rest =>
      match escaped? mark, high with
      | some character, none =>
          (scanString none rest).map fun read => (character :: read.1, read.2)
      | _, _ => none
  | character :: rest =>
      if high.isSome then none
      else if character == '"' then some ([], rest)
      else if character.toNat < 0x20 then none
      else (scanString none rest).map fun read => (character :: read.1, read.2)

/-- The number of a numeral. Without point and exponent it is whole if it fits sixty-four bits;
negative zero is no whole number. -/
def numberOf? (numeral : Decimal.Numeral) (exact : Bool) : Option Number :=
  let size := Decimal.digitsValue numeral.whole
  if exact && !numeral.negative && size < Nat.pow 2 64 then
    some (.integer size)
  else if exact && numeral.negative && 0 < size && size ≤ Nat.pow 2 63 then
    some (.integer (-size))
  else
    numeral.scaled.map .real

/-- Read a number. -/
def scanNumber (characters : List Char) : Option (Number × List Char) := do
  let (negative, rest) := match characters with
    | '-' :: rest => (true, rest)
    | rest => (false, rest)
  let (whole, rest) := match rest with
    | '0' :: rest => ([0], rest)
    | rest => Decimal.spanDigits rest
  if whole.isEmpty then none
  let (fraction, rest) ← match rest with
    | '.' :: rest =>
        match Decimal.spanDigits rest with
        | ([], _) => none
        | (digits, rest) => some (digits, rest)
    | rest => some ([], rest)
  let (exponent, rest) ← Decimal.readExponent rest
  let number ← numberOf? ⟨negative, whole, fraction, exponent.getD 0⟩
    (fraction.isEmpty && exponent.isNone)
  return (number, rest)

/-- The token that starts a list of characters, and the rest behind it. -/
def scanToken : List Char → Option (Token × List Char)
  | '[' :: rest => some (.arrayOpen, rest)
  | ']' :: rest => some (.arrayClose, rest)
  | '\x7b' :: rest => some (.objectOpen, rest)
  | '\x7d' :: rest => some (.objectClose, rest)
  | ',' :: rest => some (.comma, rest)
  | ':' :: rest => some (.colon, rest)
  | 'n' :: 'u' :: 'l' :: 'l' :: rest => some (.null, rest)
  | 't' :: 'r' :: 'u' :: 'e' :: rest => some (.bool true, rest)
  | 'f' :: 'a' :: 'l' :: 's' :: 'e' :: rest => some (.bool false, rest)
  | '"' :: rest => (scanString none rest).map fun read => (.string (String.ofList read.1), read.2)
  | characters => (scanNumber characters).map fun read => (.number read.1, read.2)

/-- Whether a character may stand between tokens. -/
def isSpace (character : Char) : Bool :=
  character == ' ' || character == '\t' || character == '\n' || character == '\r'

/-- Split characters into tokens. Every step takes at least one character, so as many steps as
there are characters suffice. -/
def scanTokens : (steps : Nat) → List Char → Option (List Token)
  | _, [] => some []
  | 0, _ :: _ => none
  | steps + 1, character :: rest =>
      if isSpace character then
        scanTokens steps rest
      else do
        let (token, rest) ← scanToken (character :: rest)
        let tokens ← scanTokens steps rest
        return token :: tokens

/-- The tokens of a text. -/
def tokens? (text : String) : Option (List Token) :=
  let characters := text.toList
  scanTokens characters.length characters

end ComponentModel.Json
