import ComponentModel.Decimal.Binary

/-!
# Shortest decimals

The shortest decimal of a positive double is the one with the fewest digits among those that are
nearer to it than to any other double, and of these the nearest to the value itself. The search
is exact: for each number of digits the two neighbours of the value on that decimal grid are
compared with the interval of reals that round to the double.
-/

namespace ComponentModel.Decimal

/-- Which of two equally near decimals is taken. -/
inductive Tie where
  | up
  | even
  deriving Repr, DecidableEq

/-- A decimal `digits * 10 ^ scale`. -/
structure Digits where
  digits : Nat
  scale : Int
  deriving Repr, DecidableEq

/-- Number of decimal digits of a whole number; one for zero. -/
def digitCount (number : Nat) : Nat :=
  (Nat.toDigits 10 number).length

/-- The exponent `p` of a positive fraction with
`10 ^ p ≤ numerator / denominator < 10 ^ (p + 1)`. -/
def leadingPlace (numerator denominator : Nat) : Int :=
  if denominator ≤ numerator then
    digitCount (numerator / denominator) - 1
  else
    -(digitCount ((denominator + numerator - 1) / numerator - 1) : Int)

/-- The reals that round to one double, as multiples of a common unit: `lower`, the value itself
and `upper` over `denominator`, the ends belonging to the interval when `closed` holds. -/
structure Interval where
  lower : Nat
  value : Nat
  upper : Nat
  denominator : Nat
  closed : Bool

/-- The rounding interval of `mantissa * 2 ^ exponent`. An even mantissa wins its ties, so its
interval has its ends. -/
def Interval.of (mantissa : Nat) (exponent : Int) (narrow : Bool) : Interval :=
  let unit := Nat.pow 2 (exponent - 2).toNat
  { lower := (4 * mantissa - (if narrow then 1 else 2)) * unit
    value := 4 * mantissa * unit
    upper := (4 * mantissa + 2) * unit
    denominator := Nat.pow 2 (2 - exponent).toNat
    closed := mantissa % 2 == 0 }

/-- Whether the decimal `candidate * 10 ^ scale` lies in the interval. -/
def Interval.holds (interval : Interval) (candidate : Nat) (scale : Int) : Bool :=
  let point := candidate * Nat.pow 10 scale.toNat * interval.denominator
  let down := Nat.pow 10 (-scale).toNat
  if interval.closed then
    interval.lower * down ≤ point && point ≤ interval.upper * down
  else
    interval.lower * down < point && point < interval.upper * down

/-- The multiple of `10 ^ scale` in the interval that is nearest to its value, if one of the two
neighbours of the value lies in the interval. -/
def Interval.onGrid (interval : Interval) (tie : Tie) (scale : Int) : Option Nat :=
  let numerator := interval.value * Nat.pow 10 (-scale).toNat
  let denominator := interval.denominator * Nat.pow 10 scale.toNat
  let below := numerator / denominator
  let above := below + 1
  match interval.holds below scale, interval.holds above scale with
  | false, false => none
  | true, false => some below
  | false, true => some above
  | true, true =>
      let twice := 2 * (numerator % denominator)
      if twice < denominator then some below
      else if denominator < twice then some above
      else match tie with
        | .up => some above
        | .even => if below % 2 == 0 then some below else some above

/-- Search the grids from coarse to fine; `count` grids are left. -/
def Interval.search (interval : Interval) (tie : Tie) : (count : Nat) → Int → Option Digits
  | 0, _ => none
  | count + 1, scale =>
      match interval.onGrid tie scale with
      | some digits => some ⟨digits, scale⟩
      | none => interval.search tie count (scale - 1)

/-- Drop the zeros at the end of the digits; `count` of them at most. -/
def Digits.strip : (count : Nat) → Digits → Digits
  | 0, decimal => decimal
  | count + 1, decimal =>
      if decimal.digits % 10 == 0 && decimal.digits != 0 then
        Digits.strip count ⟨decimal.digits / 10, decimal.scale + 1⟩
      else
        decimal

/-- The shortest decimal of the positive double `mantissa * 2 ^ exponent`. Seventeen digits
always suffice; past them the exact value stands in. -/
def shortest (tie : Tie) (mantissa : Nat) (exponent : Int) (narrow : Bool) : Digits :=
  let interval := Interval.of mantissa exponent narrow
  let top := leadingPlace interval.value interval.denominator
  let found := (interval.search tie 17 top).getD
    ⟨mantissa * Nat.pow 2 exponent.toNat * Nat.pow 5 (-exponent).toNat,
      -((-exponent).toNat : Int)⟩
  found.strip (digitCount found.digits)

end ComponentModel.Decimal
