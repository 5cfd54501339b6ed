import Monetary.Json.Token

/-!
# Reading JSON

Tokens are put together by a machine with a stack of the arrays and objects that are still open, so
no depth of nesting is too great. A text is one value with nothing but blanks around it.
-/

namespace Monetary.JsonValue

/-- Something that waits for a value or an end; what it holds so far is kept in reverse. -/
inductive Frame where
  | array (items : List JsonValue)
  | object (members : List (List Nat × JsonValue))
  /-- The key of the next member of the object below. -/
  | key (points : List Nat)

/-- What the machine expects next, with the open frames, innermost first. -/
inductive State where
  | value (stack : List Frame)
  /-- The first item of an array, or its end. -/
  | firstItem (stack : List Frame)
  /-- The first key of an object, or its end. -/
  | firstKey (stack : List Frame)
  | key (stack : List Frame)
  | colon (stack : List Frame)
  /-- A comma, or the end of the innermost frame. -/
  | more (stack : List Frame)
  | done (value : JsonValue)

/-- A complete value put into the innermost frame. -/
def place (value : JsonValue) : List Frame → Option State
  | [] => some (.done value)
  | .array items :: stack => some (.more (.array (value :: items) :: stack))
  | .key points :: .object members :: stack =>
    some (.more (.object ((points, value) :: members) :: stack))
  | _ => none

/-- A step where a value is expected. -/
def beginValue (stack : List Frame) : JsonToken → Option State
  | .beginObject => some (.firstKey (.object [] :: stack))
  | .beginArray => some (.firstItem (.array [] :: stack))
  | .null => place .null stack
  | .boolean value => place (.boolean value) stack
  | .number numeral => place (.number numeral) stack
  | .string points => place (.string points) stack
  | _ => none

/-- A step of the machine. -/
def step (state : State) (token : JsonToken) : Option State :=
  match state, token with
  | .value stack, token => beginValue stack token
  | .firstItem (.array _ :: stack), .endArray => place (.array []) stack
  | .firstItem stack, token => beginValue stack token
  | .firstKey (.object _ :: stack), .endObject => place (.object []) stack
  | .firstKey stack, .string points => some (.colon (.key points :: stack))
  | .key stack, .string points => some (.colon (.key points :: stack))
  | .colon stack, .colon => some (.value stack)
  | .more (.array items :: stack), .comma => some (.value (.array items :: stack))
  | .more (.array items :: stack), .endArray => place (.array items.reverse) stack
  | .more (.object members :: stack), .comma => some (.key (.object members :: stack))
  | .more (.object members :: stack), .endObject => place (.object members.reverse) stack
  | _, _ => none

/-- The value of a list of tokens. -/
def ofTokens? (tokens : List JsonToken) : Option JsonValue :=
  match tokens.foldlM step (.value []) with
  | some (.done value) => some value
  | _ => none

/-- The value of a text. -/
def parse? (text : String) : Option JsonValue :=
  (JsonToken.scan .between text.toList).bind ofTokens?

end Monetary.JsonValue
