import ComponentModel.Decimal.Binary
import ComponentModel.Json.Value

/-!
# Canonical units

Units reduced to base units: a magnitude times a product of powers of base units. Two units
measure the same dimension when the powers agree; the magnitudes then give the factor between
them.
-/

namespace ComponentModel.Units

/-- A magnitude and the exponent of each base unit, sorted by the name of the base unit. -/
structure Canonical where
  magnitude : Float
  dimensions : List (String × Float)
  deriving Repr

/-- A power of ten, computed by repeated squaring of `base`. -/
def powerBySquares (result base : Float) (exponent : Nat) : Float :=
  if exponent = 0 then
    result
  else
    powerBySquares (if exponent % 2 = 1 then result * base else result) (base * base) (exponent / 2)
termination_by exponent
decreasing_by omega

/-- A power of ten. A negative power is the reciprocal of the positive one. -/
def tenToThe (power : Int) : Float :=
  let size := powerBySquares 1.0 10.0 power.natAbs
  if power < 0 then 1.0 / size else size

namespace Canonical

/-- The number one. -/
def dimensionless : Canonical :=
  ⟨1.0, []⟩

/-- A base unit. -/
def base (name : String) : Canonical :=
  ⟨1.0, [(name, 1.0)]⟩

/-- A magnitude times powers of base units. -/
def ofTerms (magnitude : Float) (terms : List (String × Float)) : Canonical :=
  ⟨magnitude, Json.sortEntries terms⟩

/-- Add to the exponent of a base unit, in a list sorted by name. -/
def addExponent (name : String) (value : Float) : List (String × Float) → List (String × Float)
  | [] => [(name, 0.0 + value)]
  | (other, exponent) :: rest =>
      if name < other then (name, 0.0 + value) :: (other, exponent) :: rest
      else if name == other then (other, exponent + value) :: rest
      else (other, exponent) :: addExponent name value rest

/-- Multiply by `multiplier * (10 ^ power * other) ^ exponent`. Base units whose exponent comes
close to zero are dropped. -/
def accumulate (units other : Canonical) (power : Int) (exponent multiplier : Float) :
    Canonical where
  magnitude :=
    units.magnitude * (multiplier * Float.pow (tenToThe power * other.magnitude) exponent)
  dimensions :=
    (other.dimensions.foldl (fun sum entry => addExponent entry.1 (entry.2 * exponent) sum)
      units.dimensions).filter fun entry => !Decimal.close entry.2 0.0

/-- Whether two units measure the same dimension. -/
def sameDimensions (units other : Canonical) : Bool :=
  units.dimensions.length == other.dimensions.length &&
    units.dimensions.all fun entry =>
      match other.dimensions.lookup entry.1 with
      | some exponent => Decimal.approx exponent entry.2
      | none => false

end Canonical

end ComponentModel.Units
