import ComponentModel.Json.Token

/-!
# Reading documents

The tokens of a text are read one by one against a stack of the arrays and objects that are
still open. A text is a document when its tokens leave exactly one finished value.
-/

namespace ComponentModel.Json

/-- An open array or object. Items and entries are kept last first. -/
inductive Frame where
  | array (items : List Value)
  | object (entries : List (String × Value)) (key : String)

/-- What is awaited next, with the open arrays and objects, the innermost first. -/
inductive Reading where
  /-- A value. -/
  | value (frames : List Frame)
  /-- The first item of an array, or its end. -/
  | item (frames : List Frame)
  /-- The first key of an object, or its end. -/
  | entry (frames : List Frame)
  /-- A key. -/
  | key (entries : List (String × Value)) (frames : List Frame)
  /-- The colon behind a key. -/
  | colon (entries : List (String × Value)) (key : String) (frames : List Frame)
  /-- What may follow a finished value. -/
  | after (value : Value) (frames : List Frame)

/-- Arrays and objects nest at most this deep. -/
def nestingLimit : Nat := 127

namespace Reading

/-- Read a token where a value is awaited. -/
def readValue (frames : List Frame) : Token → Option Reading
  | .arrayOpen => if frames.length < nestingLimit then some (.item frames) else none
  | .objectOpen => if frames.length < nestingLimit then some (.entry frames) else none
  | .null => some (.after .null frames)
  | .bool truth => some (.after (.bool truth) frames)
  | .number number => some (.after (.number number) frames)
  | .string text => some (.after (.string text) frames)
  | _ => none

/-- Read one token. -/
def step : Reading → Token → Option Reading
  | .value frames, token => readValue frames token
  | .item frames, .arrayClose => some (.after (.array []) frames)
  | .item frames, token => readValue (.array [] :: frames) token
  | .entry frames, .objectClose => some (.after (.object []) frames)
  | .entry frames, .string label => some (.colon [] label frames)
  | .key entries frames, .string label => some (.colon entries label frames)
  | .colon entries label frames, .colon => some (.value (.object entries label :: frames))
  | .after found (.array items :: frames), .comma =>
      some (.value (.array (found :: items) :: frames))
  | .after found (.array items :: frames), .arrayClose =>
      some (.after (.array (found :: items).reverse) frames)
  | .after found (.object entries label :: frames), .comma =>
      some (.key ((label, found) :: entries) frames)
  | .after found (.object entries label :: frames), .objectClose =>
      some (.after (.object ((label, found) :: entries).reverse) frames)
  | _, _ => none

/-- Read tokens one after the other. -/
def run : Reading → List Token → Option Reading
  | reading, [] => some reading
  | reading, token :: rest =>
      match reading.step token with
      | some next => next.run rest
      | none => none

end Reading

/-- The document value of a list of tokens. -/
def Value.ofTokens? (tokens : List Token) : Option Value :=
  match (Reading.value []).run tokens with
  | some (.after value []) => some value
  | _ => none

/-- The document value of a text. -/
def Value.read? (text : String) : Option Value :=
  (tokens? text).bind Value.ofTokens?

end ComponentModel.Json
