import ComponentModel.Code.Defaults
import ComponentModel.Json.Fields
import ComponentModel.Json.Reader
import ComponentModel.Json.Writer

/-!
# Profiles in documents

A profile is read from an object. Its `kind` chooses the default profile, and every other key
overrides the field of its name. Repeated keys do no harm; the last one counts.
-/

namespace ComponentModel.Code

open Json (Value Fields)
open Equation (MathFunction)

/-- Why a document is no profile. -/
inductive ProfileFault where
  /-- The text is no document, or a field does not have its type. -/
  | unreadable
  | notAnObject
  | unknownField (key : String)
  deriving Repr, DecidableEq

/-- The message of a fault in a profile. -/
def ProfileFault.message : ProfileFault → String
  | .unreadable => "Error reading JSON"
  | .notAnObject => "Invalid generator profile: a profile must be a JSON object"
  | .unknownField key => "Invalid generator profile: unknown profile field '" ++ key ++ "'"

/-- A kind is written as its word, or as an object with the word as its only key. -/
def ProfileKind.ofValue? : Value → Option ProfileKind
  | .string written => ProfileKind.ofWord? written
  | .object [(written, .null)] => ProfileKind.ofWord? written
  | _ => none

/-- A text of a function, empty where it is not written. -/
def textOrEmpty (fields : Fields) (place : Nat) (name : String) : Option String :=
  match fields.get? place name with
  | none => some ""
  | some value => value.asString?

/-- Read a function. -/
def HelperFunction.ofValue? (value : Value) : Option HelperFunction := do
  let fields ← Fields.ofValue? ["interface", "implementation"] value
  return {
    interface := ← textOrEmpty fields 0 "interface"
    implementation := ← textOrEmpty fields 1 "implementation" }

/-- The document value of a function. -/
def HelperFunction.toValue (function : HelperFunction) : Value :=
  .object [("interface", .string function.interface),
    ("implementation", .string function.implementation)]

namespace Profile

/-- The document value of a field. -/
def fieldValue (profile : Profile) : Field → Value
  | .kind => .string profile.kind.word
  | .text field => .string (profile.text field)
  | .flag field => .bool (profile.flag field)
  | .function function => (profile.function function).toValue

/-- Override a field. -/
def setField (profile : Profile) (field : Field) (value : Value) : Option Profile :=
  match field with
  | .kind => (ProfileKind.ofValue? value).map fun kind => { profile with kind }
  | .text field => value.asString?.map (profile.setText field)
  | .flag field => value.asBool?.map (profile.setFlag field)
  | .function function => (HelperFunction.ofValue? value).map (profile.setFunction function)

/-- The fields of the keys of entries. -/
def knownFields : List (String × Value) → Except ProfileFault (List (Field × Value))
  | [] => .ok []
  | (key, value) :: rest =>
      match Field.ofKey? key with
      | none => .error (.unknownField key)
      | some field => (knownFields rest).map ((field, value) :: ·)

/-- The profile of a document value. -/
def fromValue (value : Value) : Except ProfileFault Profile :=
  match value.collapse with
  | .object entries =>
      match entries.lookup "kind" with
      | some written =>
          match ProfileKind.ofValue? written with
          | some kind => override kind entries
          | none => .error .unreadable
      | none => override .c entries
  | _ => .error .notAnObject
where
  /-- The default profile of a kind, with the fields of the entries in place of its own. -/
  override (kind : ProfileKind) (entries : List (String × Value)) :
      Except ProfileFault Profile := do
    let fields ← knownFields entries
    match fields.foldlM (fun profile entry => profile.setField entry.1 entry.2) (ofKind kind) with
    | some profile => .ok profile
    | none => .error .unreadable

/-- The profile of a text. -/
def read (text : String) : Except ProfileFault Profile :=
  match Value.read? text with
  | some value => fromValue value
  | none => .error .unreadable

/-- The text of a profile as a document, with all its fields. -/
def toJson (profile : Profile) : String :=
  (Value.object (Field.all.map fun field => (field.key, profile.fieldValue field))).pretty

end Profile

end ComponentModel.Code
