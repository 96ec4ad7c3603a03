/-!
# Binary fractions

A finite double is a whole mantissa times a power of two. This module reads that form off the
bits of a double, together with the place of the double among all doubles, by which two values
are compared "up to a few representable steps".
-/

namespace ComponentModel.Decimal

/-- What the bits of a double say. A finite value is `mantissa * 2 ^ exponent`; `narrow` holds
when the gap to the next smaller double is half of the gap to the next larger one. -/
inductive Shape where
  | undefined
  | infinite (negative : Bool)
  | finite (negative : Bool) (mantissa : Nat) (exponent : Int) (narrow : Bool)
  deriving Repr, DecidableEq

/-- The shape of a double given by its sixty-four bits. -/
def Shape.ofBits (bits : Nat) : Shape :=
  let negative := bits / Nat.pow 2 63 == 1
  let biased : Nat := bits / Nat.pow 2 52 % Nat.pow 2 11
  let fraction := bits % Nat.pow 2 52
  if biased == Nat.pow 2 11 - 1 then
    if fraction == 0 then .infinite negative else .undefined
  else if biased == 0 then
    .finite negative fraction (-1074) false
  else
    .finite negative (Nat.pow 2 52 + fraction) ((biased : Int) - 1075) (fraction == 0 && biased > 1)

/-- The shape of a double. -/
def Shape.ofFloat (value : Float) : Shape :=
  .ofBits value.toBits.toNat

/-- The place of a double in the order of all doubles: neighbouring doubles have neighbouring
places. -/
def place (value : Float) : Int :=
  let bits := value.toBits.toNat
  if bits < Nat.pow 2 63 then (Nat.pow 2 63 + bits : Nat) else (Nat.pow 2 64 - 1 - bits : Nat)

/-- Two doubles are equal or at most `steps` representable steps apart. -/
def within (steps : Nat) (left right : Float) : Bool :=
  left == right || (place left - place right).natAbs ≤ steps

/-- Equality up to four representable steps. -/
def approx (left right : Float) : Bool :=
  within 4 left right

/-- Equality up to four representable steps, or up to the distance between one and the next
larger double. -/
def close (left right : Float) : Bool :=
  left == right || (left - right).abs <= Float.ofBits 0x3CB0000000000000 || approx left right

end ComponentModel.Decimal
