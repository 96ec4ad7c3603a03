import ComponentModel.Json.Value

/-!
# Records in documents

A record is written either as an object, whose keys must be among the fields of the record and
must not repeat, or as an array of the fields in their order. In the array form only lists at the
end may be left out, and nothing may follow the last field. The readers of this module are given
the place and the name of a field, so that one description serves both forms.
-/

namespace ComponentModel.Json

/-- The fields of a record as they were written. -/
inductive Fields where
  | named (entries : List (String × Value))
  | positional (items : List Value)

namespace Fields

/-- The fields of a record with the given field names. -/
def ofValue? (names : List String) : Value → Option Fields
  | .object entries =>
      let keys := entries.map Prod.fst
      if keys.all names.contains && keys.eraseDups.length == keys.length then
        some (.named entries)
      else
        none
  | .array items => if items.length ≤ names.length then some (.positional items) else none
  | _ => none

/-- The value written for a field. -/
def get? (fields : Fields) (place : Nat) (name : String) : Option Value :=
  match fields with
  | .named entries => entries.lookup name
  | .positional items => items[place]?

/-- A field that must be written. -/
def required {α : Type} (fields : Fields) (place : Nat) (name : String)
    (decode : Value → Option α) : Option α :=
  (fields.get? place name).bind decode

/-- A field that may hold `null`. In an object it may also be left out. -/
def optional {α : Type} (fields : Fields) (place : Nat) (name : String)
    (decode : Value → Option α) : Option (Option α) :=
  match fields, fields.get? place name with
  | .named _, none => some none
  | .positional _, none => none
  | _, some .null => some none
  | _, some value => (decode value).map some

/-- A list that may be left out. -/
def list {α : Type} (fields : Fields) (place : Nat) (name : String)
    (decode : Value → Option (List α)) : Option (List α) :=
  match fields.get? place name with
  | none => some []
  | some value => decode value

end Fields

/-- A list, each item of it read in turn. -/
def listOf {α : Type} (decode : Value → Option α) : Value → Option (List α)
  | .array items => items.mapM decode
  | _ => none

end ComponentModel.Json
