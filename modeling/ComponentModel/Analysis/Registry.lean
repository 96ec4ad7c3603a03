import ComponentModel.Analysis.Index

/-!
# Records of variables

An analysis keeps one record for each class of equivalent declarations, made when the class is
first met. The kind of a record says what is known about the value of the class; the order of the
kinds is the order in which variables are laid out.
-/

namespace ComponentModel.Analysis

/-- What is known about the value of a class of variables. -/
inductive Kind where
  | unknown
  /-- Differentiated, but without an initial value. -/
  | shouldBeState
  | integrationVariable
  | state
  | constant
  | computedTrueConstant
  | computedVariableBasedConstant
  | algebraic
  | overconstrained
  deriving Repr, DecidableEq

namespace Kind

/-- All kinds, in order. -/
def all : List Kind :=
  [.unknown, .shouldBeState, .integrationVariable, .state, .constant, .computedTrueConstant,
   .computedVariableBasedConstant, .algebraic, .overconstrained]

/-- The place of a kind among all kinds. -/
def rank : Kind → Nat
  | unknown => 0
  | shouldBeState => 1
  | integrationVariable => 2
  | state => 3
  | constant => 4
  | computedTrueConstant => 5
  | computedVariableBasedConstant => 6
  | algebraic => 7
  | overconstrained => 8

/-- The kind of a variable that is found differentiated. -/
def madeState : Kind → Kind
  | unknown => shouldBeState
  | constant => state
  | kind => kind

/-- The kind of a variable that an equation computes. -/
def resolvedBy (trueConstant variableBased : Bool) : Kind → Kind
  | unknown =>
      if trueConstant then computedTrueConstant
      else if variableBased then computedVariableBasedConstant
      else algebraic
  | kind => kind

/-- Whether the value is available without solving an equation first. -/
def isKnown : Kind → Bool
  | integrationVariable | state | constant | computedTrueConstant
  | computedVariableBasedConstant => true
  | _ => false

/-- Whether an equation can settle the variable. -/
def isComputable : Kind → Bool
  | state | computedTrueConstant | computedVariableBasedConstant | algebraic => true
  | _ => false

end Kind

/-- The record of one class of variables. -/
structure Record where
  /-- The representative of the class. -/
  representative : Nat
  /-- The declaration with the initial value, or the first one met. -/
  initialDeclaration : Nat
  /-- The declaration that is reported for the class. -/
  declaration : Nat
  kind : Kind
  /-- The place among the states, or among all other variables. -/
  place : Option Nat
  /-- The equation that computes the class. -/
  equation : Option Nat
  deriving Repr, DecidableEq

namespace Record

/-- Report a declaration, and take its initial value. -/
def track (record : Record) (declaration : Nat) (initialised : Bool) : Record :=
  { record with
    initialDeclaration := declaration
    declaration
    kind := if initialised then .constant else record.kind }

/-- The class is the variable of integration. -/
def makeIntegrationVariable (record : Record) : Record :=
  { record with kind := .integrationVariable }

/-- The class is differentiated. -/
def makeState (record : Record) : Record :=
  { record with kind := record.kind.madeState }

/-- The record of a class that is met at a declaration. -/
def new (index : Index) (declaration : Nat) : Record :=
  Record.track ⟨index.classOf declaration, declaration, declaration, .unknown, none, none⟩
    declaration (index.declaration declaration).isInitialised

/-- Whether the value of the class is available. -/
def isKnown (record : Record) : Bool :=
  record.place.isSome || record.kind.isKnown

end Record

/-- All records, by number. -/
abbrev Registry := List Record

namespace Registry

/-- The number of the record of the class of a declaration. -/
def find? (registry : Registry) (index : Index) (declaration : Nat) : Option Nat :=
  registry.findIdx? fun record => record.representative == index.classOf declaration

/-- The number of the record of the class of a declaration, and the records with one for it. -/
def resolve (registry : Registry) (index : Index) (declaration : Nat) : Nat × Registry :=
  match registry.find? index declaration with
  | some number => (number, registry)
  | none => (registry.length, registry ++ [Record.new index declaration])

/-- A record by its number. -/
def get (registry : Registry) (number : Nat) : Record :=
  registry.getD number ⟨0, 0, 0, .unknown, none, none⟩

/-- Change the record of a number. -/
def change (registry : Registry) (number : Nat) (update : Record → Record) : Registry :=
  registry.modify number update

/-- The numbers of all records. -/
def numbers (registry : Registry) : List Nat :=
  List.range registry.length

end Registry

end ComponentModel.Analysis
