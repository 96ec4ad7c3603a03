import ComponentModel.Decimal.Shortest

/-!
# Layouts of decimal texts

A layout is the set of decisions that turn the shortest digits of a double into text: which way
ties go, where positional writing ends, whether a whole number keeps its `.0`, and how values
that are no numbers are written.
-/

namespace ComponentModel.Decimal

/-- The decisions of one written form of doubles. -/
structure Layout where
  /-- Which of two equally near shortest decimals is written. -/
  tie : Tie
  /-- Whether a value `d.ddd * 10 ^ e` is written positionally. -/
  positional : (e : Int) → Bool
  /-- What follows the digits of a whole number. -/
  wholeMark : String
  /-- The text of positive infinity; the negative one has a minus sign in front. -/
  infinite : String
  /-- The text of a value that is no number. -/
  undefined : String
  /-- Whether values that are no finite numbers carry a sign. -/
  signedInfinite : Bool

/-- The digits of a whole number as text. -/
def digitText (number : Nat) : String :=
  String.ofList (Nat.toDigits 10 number)

/-- The digits with a point so that `after` of them stand behind it. -/
def pointed (digits : String) (after : Nat) : String :=
  let characters := digits.toList
  let padded := List.replicate (after + 1 - characters.length) '0' ++ characters
  let before := padded.length - after
  String.ofList (padded.take before ++ '.' :: padded.drop before)

/-- A decimal written positionally. -/
def Layout.positionalText (layout : Layout) (decimal : Digits) : String :=
  let digits := digitText decimal.digits
  if 0 ≤ decimal.scale then
    digits ++ String.ofList (List.replicate decimal.scale.toNat '0') ++ layout.wholeMark
  else
    pointed digits (-decimal.scale).toNat

/-- A decimal written as `d.ddde±x`: the point is left out after a single digit, the sign of the
exponent is always there. -/
def exponentText (decimal : Digits) : String :=
  let digits := (digitText decimal.digits).toList
  let exponent := decimal.scale + (digits.length - 1 : Nat)
  let leading := String.ofList (digits.take 1)
  let fraction := if digits.length ≤ 1 then "" else "." ++ String.ofList (digits.drop 1)
  let sign := if exponent < 0 then "-" else "+"
  leading ++ fraction ++ "e" ++ sign ++ digitText exponent.natAbs

/-- A positive or zero decimal in the layout. -/
def Layout.magnitudeText (layout : Layout) (mantissa : Nat) (exponent : Int) (narrow : Bool) :
    String :=
  if mantissa == 0 then
    "0" ++ layout.wholeMark
  else
    let decimal := shortest layout.tie mantissa exponent narrow
    let top := decimal.scale + (digitCount decimal.digits - 1 : Nat)
    if layout.positional top then layout.positionalText decimal else exponentText decimal

/-- The text of a double in a layout. -/
def Layout.write (layout : Layout) (value : Float) : String :=
  match Shape.ofFloat value with
  | .undefined => layout.undefined
  | .infinite negative =>
      (if negative && layout.signedInfinite then "-" else "") ++ layout.infinite
  | .finite negative mantissa exponent narrow =>
      (if negative then "-" else "") ++ layout.magnitudeText mantissa exponent narrow

/-- The plain form: always positional, whole numbers without a point, a tie goes up. -/
def plain : Layout where
  tie := .up
  positional _ := true
  wholeMark := ""
  infinite := "inf"
  undefined := "NaN"
  signedInfinite := true

/-- The form of numbers in documents: positional from `10 ^ -5` up to `10 ^ 16`, whole numbers
with `.0`, a tie goes to the even digit; what is no finite number is written `null`. -/
def documented : Layout where
  tie := .even
  positional exponent := -5 ≤ exponent && exponent < 16
  wholeMark := ".0"
  infinite := "null"
  undefined := "null"
  signedInfinite := false

/-- A double in the plain form. -/
def text (value : Float) : String :=
  plain.write value

end ComponentModel.Decimal
