/-!
# Document values

A document value is what a JSON text denotes. Objects keep their entries in the order in which
they were written and keep repeated keys, so that a reader of records can refuse them.
-/

namespace ComponentModel.Json

/-- A number of a document: a whole number of at most sixty-four bits, or a double. -/
inductive Number where
  | integer (value : Int)
  | real (value : Float)
  deriving Repr

/-- The double of a number. -/
def Number.toFloat : Number → Float
  | .integer value => Float.ofInt value
  | .real value => value

/-- A document value. -/
inductive Value where
  | null
  | bool (value : Bool)
  | number (value : Number)
  | string (value : String)
  | array (items : List Value)
  | object (entries : List (String × Value))
  deriving Repr

/-- Put an entry into a list sorted by key. An entry of the same key is replaced. -/
def insertSorted {α : Type} (key : String) (value : α) : List (String × α) → List (String × α)
  | [] => [(key, value)]
  | (other, kept) :: rest =>
      if key < other then (key, value) :: (other, kept) :: rest
      else if key == other then (key, value) :: rest
      else (other, kept) :: insertSorted key value rest

/-- The entries sorted by key; of several entries of one key the last one stays. -/
def sortEntries {α : Type} (entries : List (String × α)) : List (String × α) :=
  entries.foldl (fun sorted entry => insertSorted entry.1 entry.2 sorted) []

namespace Value

mutual

/-- The value with the entries of all its objects sorted by key and without repeated keys. -/
def collapse : Value → Value
  | .array items => .array (collapseItems items)
  | .object entries => .object (sortEntries (collapseEntries entries))
  | value => value

/-- The items, each one collapsed. -/
def collapseItems : List Value → List Value
  | [] => []
  | item :: rest => collapse item :: collapseItems rest

/-- The entries, the value of each one collapsed. -/
def collapseEntries : List (String × Value) → List (String × Value)
  | [] => []
  | (key, value) :: rest => (key, collapse value) :: collapseEntries rest

end

/-- The value of the first entry of a key, in an object. -/
def get? (key : String) : Value → Option Value
  | .object entries => entries.lookup key
  | _ => none

/-- The text of a string. -/
def asString? : Value → Option String
  | .string value => some value
  | _ => none

/-- The truth value of a boolean. -/
def asBool? : Value → Option Bool
  | .bool value => some value
  | _ => none

/-- The double of a number. -/
def asFloat? : Value → Option Float
  | .number value => some value.toFloat
  | _ => none

/-- The items of an array. -/
def asArray? : Value → Option (List Value)
  | .array items => some items
  | _ => none

end Value

end ComponentModel.Json
