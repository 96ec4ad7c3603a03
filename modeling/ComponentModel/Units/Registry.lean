import ComponentModel.Model.Basic
import ComponentModel.Units.Builtin

/-!
# The units of a model

All units definitions of a model are resolved at once, together with the built-in units. A
definition may refer to any other, in any order, as long as no definition refers to itself through
its terms. Of several definitions of one name the last one counts, and it hides built-in units of
that name.
-/

namespace ComponentModel.Units

/-- Why units cannot be resolved or compared. -/
inductive UnitsError where
  | unknown (name : String)
  /-- The names run through from one definition back to itself. -/
  | circular (chain : List String)
  | invalidPrefix (written units : String)
  | incompatible (source target : String)
  deriving Repr, DecidableEq

/-- The message of a fault in units. -/
def UnitsError.message : UnitsError → String
  | .unknown name => "Units '" ++ name ++ "' are not defined"
  | .circular chain => "Units definitions are circular: " ++ " -> ".intercalate chain
  | .invalidPrefix written units => "Invalid prefix '" ++ written ++ "' in units '" ++ units ++ "'"
  | .incompatible source target =>
      "Units '" ++ source ++ "' and '" ++ target ++ "' are not compatible"

/-- A whole number of thirty-two bits, written with digits and an optional sign. -/
def wholeNumber? (text : String) : Option Int :=
  let (negative, digits) := match text.toList with
    | '+' :: rest => (false, rest)
    | '-' :: rest => (true, rest)
    | rest => (false, rest)
  match Decimal.spanDigits digits with
  | ([], _) => none
  | (digits, []) =>
      let size : Int := Decimal.digitsValue digits
      let value := if negative then -size else size
      if Decimal.fitsThirtyTwoBits value then some value else none
  | _ => none

/-- The power of ten of a prefix in front of `units`. A name must be that of a prefix, or a whole
number. -/
def prefixPower (written : UnitPrefix) (units : String) : Except UnitsError Int :=
  match written with
  | .power power => .ok power
  | .name name =>
      match (prefixes.lookup name).orElse fun _ => wholeNumber? (Text.trim name) with
      | some power => .ok power
      | none => .error (.invalidPrefix name units)

/-- The definition of a name that counts. -/
def effective? (definitions : List UnitsDefinition) (name : String) : Option UnitsDefinition :=
  definitions.reverse.find? fun definition => definition.name == name

/-- Units resolved so far, by name. -/
abbrev Resolved := List (String × Canonical)

/-- Multiply units by the terms of a definition, in order. -/
def resolveTerms (resolve : String → Resolved → Except UnitsError (Canonical × Resolved))
    (owner : String) : List UnitTerm → Canonical → Resolved →
    Except UnitsError (Canonical × Resolved)
  | [], units, resolved => .ok (units, resolved)
  | term :: rest, units, resolved => do
      let (reference, resolved) ← resolve term.reference resolved
      let power ← match term.siPrefix with
        | some written => prefixPower written owner
        | none => .ok 0
      resolveTerms resolve owner rest (units.accumulate reference power term.power term.factor)
        resolved

/-- Resolve a name. `chain` holds the definitions that are being resolved, the outermost first. A
chain without repetition is no longer than the list of definitions, which bounds `depth`. -/
def resolveName (definitions : List UnitsDefinition) : (depth : Nat) → (chain : List String) →
    (name : String) → Resolved → Except UnitsError (Canonical × Resolved)
  | 0, chain, _, _ => .error (.circular chain)
  | depth + 1, chain, name, resolved =>
      match resolved.lookup name with
      | some units => .ok (units, resolved)
      | none =>
          match effective? definitions name with
          | none =>
              match builtin? name with
              | some units => .ok (units, resolved)
              | none => .error (.unknown name)
          | some definition =>
              if chain.contains name then
                .error (.circular (chain ++ [name]))
              else do
                let (units, resolved) ←
                  if definition.isBase then
                    .ok (Canonical.base name, resolved)
                  else
                    resolveTerms (resolveName definitions depth (chain ++ [name])) name
                      definition.units Canonical.dimensionless resolved
                return (units, (name, units) :: resolved)

/-- Resolve definitions one after the other. -/
def resolveAll (definitions : List UnitsDefinition) :
    List UnitsDefinition → Resolved → Except UnitsError Resolved
  | [], resolved => .ok resolved
  | definition :: rest, resolved => do
      let (_, resolved) ←
        resolveName definitions (definitions.length + 1) [] definition.name resolved
      resolveAll definitions rest resolved

/-- Built-in units and the resolved definitions of one model. -/
structure Registry where
  resolved : Resolved

namespace Registry

/-- Resolve all definitions, or name the first fault. -/
def ofDefinitions (definitions : List UnitsDefinition) : Except UnitsError Registry :=
  (resolveAll definitions definitions []).map Registry.mk

/-- The canonical form of units, if their name is known. -/
def canonical? (registry : Registry) (name : String) : Option Canonical :=
  (registry.resolved.lookup name).orElse fun _ => builtin? name

/-- The canonical form of units. -/
def canonical (registry : Registry) (name : String) : Except UnitsError Canonical :=
  match registry.canonical? name with
  | some units => .ok units
  | none => .error (.unknown name)

/-- Whether the name of units is known. -/
def contains (registry : Registry) (name : String) : Bool :=
  (registry.canonical? name).isSome

/-- Whether two units measure the same dimension. -/
def compatible (registry : Registry) (first second : String) : Except UnitsError Bool := do
  let first ← registry.canonical first
  let second ← registry.canonical second
  return first.sameDimensions second

/-- The factor by which a value in `reference` units is multiplied to express it in `local`
units. -/
def scalingFactor (registry : Registry) (own reference : String) : Except UnitsError Float := do
  let ownUnits ← registry.canonical own
  let referenceUnits ← registry.canonical reference
  if ownUnits.sameDimensions referenceUnits then
    return referenceUnits.magnitude / ownUnits.magnitude
  else
    throw (.incompatible own reference)

end Registry

end ComponentModel.Units
