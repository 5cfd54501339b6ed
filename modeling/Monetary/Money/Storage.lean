import Monetary.Json.Parser
import Monetary.Json.Printer
import Monetary.Money.Record

/-!
# Stored amounts as texts

An amount is stored as the text that a format has for its record, and loaded from a text that the
format reads as a record. The format in use is JSON. There a record is an object of its fields, or
an array of them in order whose end may be missing. Fields of other names are passed over, and a
field that is there twice is refused. Every field may be `null`, apart from the precision and the
rounding mode of a context.
-/

namespace Monetary

namespace JsonValue

/-- A string or `null`, as an optional text. -/
def optionalText? : JsonValue → Option (Option String)
  | .null => some none
  | .string points => (text? points).map some
  | _ => none

/-- The value of the field of this name; no value at all if the name is there twice. -/
def field? (name : String) (members : List (List Nat × JsonValue)) : Option (Option JsonValue) :=
  match members.filter fun member => member.1 == points name with
  | [] => some none
  | [member] => some (some member.2)
  | _ => none

/-- The members of an object, if the names of all of them are texts. -/
def checkNames? (members : List (List Nat × JsonValue)) : Option (List (List Nat × JsonValue)) :=
  if members.all fun member => (text? member.1).isSome then some members else none

/-- The values of the fields of a record with these names, in order. -/
def recordFields? (names : List String) : JsonValue → Option (List (Option JsonValue))
  | .object members => do
    let members ← checkNames? members
    names.mapM fun name => field? name members
  | .array items =>
    if items.length ≤ names.length then
      some (items.map some ++ List.replicate (names.length - items.length) none)
    else none
  | _ => none

/-- An optional text from a field that may be missing. -/
def textField? : Option JsonValue → Option (Option String)
  | none => some none
  | some value => optionalText? value

/-- A precision: a number written as digits only, below 2³². -/
def precision? : JsonValue → Option UInt32
  | .number numeral =>
    match Text.readDigits numeral with
    | some n => if n < 4294967296 then some (UInt32.ofNat n) else none
    | none => none
  | _ => none

/-- A rounding mode: its name, or an object with `null` under its name. -/
def rounding? : JsonValue → Option Rounding
  | .string points => (text? points).bind Rounding.ofName?
  | .object [(points, .null)] => (text? points).bind Rounding.ofName?
  | _ => none

end JsonValue

namespace ContextRecord

/-- The names of the fields of a stored context. -/
def fieldNames : List String := ["precision", "rounding", "amount_type"]

/-- The stored context that a value is. -/
def ofJson? (json : JsonValue) : Option ContextRecord :=
  match JsonValue.recordFields? fieldNames json with
  | some [some precision, some rounding, amountType] => do
    let precision ← JsonValue.precision? precision
    let rounding ← JsonValue.rounding? rounding
    return ⟨precision, rounding, ← JsonValue.textField? amountType⟩
  | _ => none

/-- The value of a stored context. -/
def toJson (record : ContextRecord) : JsonValue :=
  .object
    [(JsonValue.points "precision", .number (Text.digits record.precision.toNat)),
      (JsonValue.points "rounding", .ofText record.rounding.name),
      (JsonValue.points "amount_type", record.amountType.elim .null .ofText)]

end ContextRecord

namespace MoneyRecord

/-- The names of the fields of a stored amount. -/
def fieldNames : List String := ["number", "currency", "context"]

/-- The stored context in a field that may be missing or `null`. -/
def contextField? : Option JsonValue → Option (Option ContextRecord)
  | none => some none
  | some .null => some none
  | some value => (ContextRecord.ofJson? value).map some

/-- The stored amount that a value is. -/
def ofJson? (json : JsonValue) : Option MoneyRecord :=
  match JsonValue.recordFields? fieldNames json with
  | some [number, currency, context] => do
    let number ← JsonValue.textField? number
    let currency ← JsonValue.textField? currency
    return ⟨number, currency, ← contextField? context⟩
  | _ => none

/-- The value of a stored amount. -/
def toJson (record : MoneyRecord) : JsonValue :=
  .object
    [(JsonValue.points "number", record.number.elim .null .ofText),
      (JsonValue.points "currency", record.currency.elim .null .ofText),
      (JsonValue.points "context", record.context.elim .null ContextRecord.toJson)]

/-- Reads the text of a stored amount. -/
def read? (text : String) : Option MoneyRecord :=
  (JsonValue.parse? text).bind ofJson?

/-- The text of a stored amount. -/
def text (record : MoneyRecord) : String :=
  String.ofList record.toJson.print

end MoneyRecord

/-- What storing uses of a format: the text of each record, and the record of a text if it is the
text of one. -/
structure RecordFormat where
  encode : MoneyRecord → String
  decode? : String → Option MoneyRecord

/-- Why a stored amount cannot be loaded. -/
inductive LoadError where
  /-- The text is none of the format, or that of no record. -/
  | unreadable
  /-- The record is not one of an amount. -/
  | rejected (cause : MoneyError)
deriving DecidableEq

namespace RecordFormat

/-- The text that an amount is stored as. -/
def save (format : RecordFormat) (money : Money) : String :=
  format.encode (.ofMoney money)

/-- The amount of a stored text. -/
def load (format : RecordFormat) (registry : Registry) (text : String) :
    Contextual (Except LoadError Money) :=
  match format.decode? text with
  | none => .known (.error .unreadable)
  | some record => (record.toMoney registry).map fun answer => answer.mapError .rejected

/-- The JSON texts as a format. -/
def json : RecordFormat where
  encode := MoneyRecord.text
  decode? := MoneyRecord.read?

end RecordFormat

namespace Money

/-- The JSON text that an amount is stored as. -/
def save (money : Money) : String :=
  RecordFormat.json.save money

/-- The amount of a stored JSON text. -/
def load (registry : Registry) (text : String) : Contextual (Except LoadError Money) :=
  RecordFormat.json.load registry text

end Money

end Monetary
