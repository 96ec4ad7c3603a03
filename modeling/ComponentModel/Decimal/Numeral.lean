/-!
# Numerals

A numeral is the text of a number as it is written: a sign, the digits before and after the
point, and an exponent. It has two readings as a double. The nearest double to the number it
denotes is used for texts in models. Numbers of documents are read by a faster rule: as many
leading digits as fit sixty-four bits, rounded once, and then scaled by a power of ten.
-/

namespace ComponentModel.Decimal

/-- A written number: `±whole.fraction * 10 ^ exponent`, the digits with the leading one first. -/
structure Numeral where
  negative : Bool
  whole : List Nat
  fraction : List Nat
  exponent : Int
  deriving Repr, DecidableEq

/-- The value of a list of decimal digits. -/
def digitsValue (digits : List Nat) : Nat :=
  digits.foldl (fun value digit => value * 10 + digit) 0

/-- Whether a whole number fits thirty-two bits, one of them for the sign. -/
def fitsThirtyTwoBits (number : Int) : Bool :=
  -2147483648 ≤ number && number ≤ 2147483647

/-- The digits at the front of a list of characters, and the rest. -/
def spanDigits (characters : List Char) : List Nat × List Char :=
  let span := characters.span Char.isDigit
  (span.1.map fun digit => digit.toNat - '0'.toNat, span.2)

/-- An exponent mark with its sign and digits, at the front of a list of characters: none without
a mark, and a fault where no digit follows the mark. -/
def readExponent (characters : List Char) : Option (Option Int × List Char) :=
  match characters with
  | mark :: rest =>
      if mark == 'e' || mark == 'E' then
        let (negative, rest) := match rest with
          | '+' :: rest => (false, rest)
          | '-' :: rest => (true, rest)
          | rest => (false, rest)
        match spanDigits rest with
        | ([], _) => none
        | (digits, rest) =>
            let size : Int := digitsValue digits
            some (some (if negative then -size else size), rest)
      else
        some (none, characters)
  | [] => some (none, [])

/-- Beyond this power of ten every double is zero or infinite. -/
def decisivePower : Int := 400

/-- The nearest double of a numeral. -/
def Numeral.nearest (numeral : Numeral) : Float :=
  let digits := digitsValue (numeral.whole ++ numeral.fraction)
  let scale := numeral.exponent - numeral.fraction.length
  let top := scale + (Nat.toDigits 10 digits).length
  let magnitude : Float :=
    if digits == 0 || top < -decisivePower then 0
    else if decisivePower < top then 1.0 / 0.0
    else Float.ofScientific digits (scale < 0) scale.natAbs
  if numeral.negative then -magnitude else magnitude

/-- Take digits onto a significand as long as it stays below `2 ^ 64`; the digits that no longer
fit are left. -/
def takeSignificand : Nat → List Nat → Nat × List Nat
  | significand, [] => (significand, [])
  | significand, digit :: rest =>
      let next := significand * 10 + digit
      if next < Nat.pow 2 64 then takeSignificand next rest else (significand, digit :: rest)

/-- Scale a double by a power of ten in steps that fit a double; none where the result is too
large. Negative powers below the range of doubles are taken `10 ^ 308` at a time, `steps` times at
most. -/
def scaleByTen (value : Float) : (steps : Nat) → Int → Option Float
  | 0, _ => some 0
  | steps + 1, power =>
      if power.natAbs ≤ 308 then
        let factor := Float.ofScientific 1 false power.natAbs
        if 0 ≤ power then
          let scaled := value * factor
          if scaled.isInf then none else some scaled
        else
          some (value / factor)
      else if value == 0 then
        some value
      else if 0 ≤ power then
        none
      else
        scaleByTen (value / Float.ofScientific 1 false 308) steps (power + 308)

/-- The double of a numeral by its leading digits; none where it is too large for a double. -/
def Numeral.scaled (numeral : Numeral) : Option Float :=
  let (leading, skipped) := takeSignificand 0 numeral.whole
  let (significand, ignored) := takeSignificand leading numeral.fraction
  let power := numeral.exponent + skipped.length - (numeral.fraction.length - ignored.length : Nat)
  (scaleByTen (Float.ofNat significand) 4 power).map fun magnitude =>
    if numeral.negative then -magnitude else magnitude

/-- The same letter case for all ASCII letters. -/
def lowered (characters : List Char) : List Char :=
  characters.map Char.toLower

/-- The text of a number in a model: a sign, digits with an optional point (on either side of
which the digits may be missing, but not on both) and an optional exponent. -/
def Numeral.ofChars? (characters : List Char) : Option Numeral :=
  let (negative, rest) := match characters with
    | '+' :: rest => (false, rest)
    | '-' :: rest => (true, rest)
    | rest => (false, rest)
  let (whole, rest) := spanDigits rest
  let (fraction, rest) := match rest with
    | '.' :: rest => spanDigits rest
    | rest => ([], rest)
  if whole.isEmpty && fraction.isEmpty then
    none
  else
    match readExponent rest with
    | some (exponent, []) => some ⟨negative, whole, fraction, exponent.getD 0⟩
    | _ => none

/-- The double that a text names: a numeral, or an infinity or undefined value by name, in any
letter case and with an optional sign. Blanks are not allowed. -/
def read? (text : String) : Option Float :=
  let characters := text.toList
  match Numeral.ofChars? characters with
  | some numeral => some numeral.nearest
  | none =>
      let (negative, name) := match characters with
        | '+' :: rest => (false, rest)
        | '-' :: rest => (true, rest)
        | rest => (false, rest)
      let name := String.ofList (lowered name)
      if name == "inf" || name == "infinity" then
        some (if negative then -(1.0 / 0.0) else 1.0 / 0.0)
      else if name == "nan" then
        some (0.0 / 0.0)
      else
        none

end ComponentModel.Decimal
