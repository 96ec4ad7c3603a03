import ComponentModel.Units.Canonical

/-!
# Built-in units and prefixes

The SI base units, the derived units with names of their own, and the SI prefixes.
-/

namespace ComponentModel.Units

open Canonical (base dimensionless ofTerms)

/-- The units that every model knows. -/
def builtins : List (String × Canonical) :=
  let ampere := "ampere"
  let candela := "candela"
  let kelvin := "kelvin"
  let kilogram := "kilogram"
  let metre := "metre"
  let mole := "mole"
  let second := "second"
  [(ampere, base ampere),
   (candela, base candela),
   (kelvin, base kelvin),
   (kilogram, base kilogram),
   (metre, base metre),
   (mole, base mole),
   (second, base second),
   ("dimensionless", dimensionless),
   ("radian", dimensionless),
   ("steradian", dimensionless),
   ("meter", base metre),
   ("celsius", base kelvin),
   ("gram", ofTerms 1.0e-3 [(kilogram, 1.0)]),
   ("litre", ofTerms 1.0e-3 [(metre, 3.0)]),
   ("liter", ofTerms 1.0e-3 [(metre, 3.0)]),
   ("becquerel", ofTerms 1.0 [(second, -1.0)]),
   ("hertz", ofTerms 1.0 [(second, -1.0)]),
   ("coulomb", ofTerms 1.0 [(second, 1.0), (ampere, 1.0)]),
   ("farad", ofTerms 1.0 [(metre, -2.0), (kilogram, -1.0), (second, 4.0), (ampere, 2.0)]),
   ("gray", ofTerms 1.0 [(metre, 2.0), (second, -2.0)]),
   ("sievert", ofTerms 1.0 [(metre, 2.0), (second, -2.0)]),
   ("henry", ofTerms 1.0 [(metre, 2.0), (kilogram, 1.0), (second, -2.0), (ampere, -2.0)]),
   ("joule", ofTerms 1.0 [(metre, 2.0), (kilogram, 1.0), (second, -2.0)]),
   ("katal", ofTerms 1.0 [(second, -1.0), (mole, 1.0)]),
   ("lumen", base candela),
   ("lux", ofTerms 1.0 [(metre, -2.0), (candela, 1.0)]),
   ("newton", ofTerms 1.0 [(metre, 1.0), (kilogram, 1.0), (second, -2.0)]),
   ("ohm", ofTerms 1.0 [(metre, 2.0), (kilogram, 1.0), (second, -3.0), (ampere, -2.0)]),
   ("pascal", ofTerms 1.0 [(metre, -1.0), (kilogram, 1.0), (second, -2.0)]),
   ("siemens", ofTerms 1.0 [(metre, -2.0), (kilogram, -1.0), (second, 3.0), (ampere, 2.0)]),
   ("tesla", ofTerms 1.0 [(kilogram, 1.0), (second, -2.0), (ampere, -1.0)]),
   ("volt", ofTerms 1.0 [(metre, 2.0), (kilogram, 1.0), (second, -3.0), (ampere, -1.0)]),
   ("watt", ofTerms 1.0 [(metre, 2.0), (kilogram, 1.0), (second, -3.0)]),
   ("weber", ofTerms 1.0 [(metre, 2.0), (kilogram, 1.0), (second, -2.0), (ampere, -1.0)])]

/-- The built-in units of a name. -/
def builtin? (name : String) : Option Canonical :=
  builtins.lookup name

/-- Whether a name is that of built-in units. -/
def isBuiltin (name : String) : Bool :=
  (builtin? name).isSome

/-- The named powers of ten. -/
def prefixes : List (String × Int) :=
  [("yotta", 24), ("zetta", 21), ("exa", 18), ("peta", 15), ("tera", 12), ("giga", 9),
   ("mega", 6), ("kilo", 3), ("hecto", 2), ("deca", 1), ("deka", 1), ("deci", -1),
   ("centi", -2), ("milli", -3), ("micro", -6), ("nano", -9), ("pico", -12), ("femto", -15),
   ("atto", -18), ("zepto", -21), ("yocto", -24)]

end ComponentModel.Units
