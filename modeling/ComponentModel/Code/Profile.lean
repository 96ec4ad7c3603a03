import ComponentModel.Code.Field

/-!
# Profiles

A profile holds everything that makes the code for one language: which code is written, and in
which words, is not decided anywhere else.
-/

namespace ComponentModel.Code

open Equation (MathFunction)

/-- The language that a profile starts from. -/
inductive ProfileKind where
  | c
  | python
  deriving Repr, DecidableEq

namespace ProfileKind

/-- The name of the language. -/
def name : ProfileKind → String
  | c => "C"
  | python => "Python"

/-- The word for a kind in documents. -/
def word : ProfileKind → String
  | c => "c"
  | python => "python"

/-- The kind of a word. -/
def ofWord? (written : String) : Option ProfileKind :=
  [c, python].find? fun kind => kind.word == written

end ProfileKind

/-- A function that generated code brings along. -/
structure HelperFunction where
  /-- The declaration in the interface. -/
  interface : String
  /-- The definition in the implementation. Without one there is no function. -/
  implementation : String
  deriving Repr, DecidableEq

/-- No function. -/
def HelperFunction.none : HelperFunction :=
  ⟨"", ""⟩

/-- The texts, flags and functions of one language. -/
structure Profile where
  kind : ProfileKind
  text : TextField → String
  flag : FlagField → Bool
  function : MathFunction → HelperFunction

namespace Profile

/-- Whether two profiles agree in a field. -/
def agrees (profile other : Profile) : Field → Bool
  | .kind => profile.kind == other.kind
  | .text field => profile.text field == other.text field
  | .flag field => profile.flag field == other.flag field
  | .function function => profile.function function == other.function function

/-- Change a text. -/
def setText (profile : Profile) (field : TextField) (value : String) : Profile :=
  { profile with text := fun other => if other == field then value else profile.text other }

/-- Change a flag. -/
def setFlag (profile : Profile) (field : FlagField) (value : Bool) : Profile :=
  { profile with flag := fun other => if other == field then value else profile.flag other }

/-- Change a function. -/
def setFunction (profile : Profile) (function : MathFunction) (value : HelperFunction) : Profile :=
  { profile with
    function := fun other => if other == function then value else profile.function other }

end Profile

end ComponentModel.Code
