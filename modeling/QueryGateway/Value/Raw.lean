import QueryGateway.Calendar.Printer
import QueryGateway.Number.Decimal
import QueryGateway.Number.Shortest
import QueryGateway.Uuid

/-!
# Untyped values

What callers hand over for a parameter. Most values arrive as text; a value that is typed already
keeps its type until the parameter it is meant for is known.

Every value has a text, which is what conversions without a rule of their own read, and the name of
its type, which error messages show.
-/

namespace QueryGateway

open Calendar Number

/-- **A value before its target is known,** as a request or a default brings it. It remembers of
what kind it is, since a value that is of the target already is taken without conversion. -/
inductive RawValue where
  /-- No value. -/
  | null
  | text (s : String)
  | bool (b : Bool)
  | int (n : Int64)
  | float (x : Double)
  | decimal (d : Decimal)
  | dateTime (t : DateTime)
  | offsetDateTime (t : OffsetDateTime)
  | time (t : TimeOfDay)
  | uuid (u : Uuid)
deriving DecidableEq

namespace RawValue

/-- Whether the value is absent. -/
def isNull : RawValue → Bool
  | .null => true
  | _ => false

/-- The name of the value's type in error messages, which need not be a word that descriptors
use. -/
def typeName : RawValue → String
  | .null => "null"
  | .text _ => "text"
  | .bool _ => "bool"
  | .int _ => "i64"
  | .float _ => "f64"
  | .decimal _ => "decimal"
  | .dateTime _ => "datetime"
  | .offsetDateTime _ => "datetimeoffset"
  | .time _ => "time"
  | .uuid _ => "uuid"

/-- **The text of a value.** An absent value has the empty text. For every other kind it is the text
that the kind is written with everywhere, so an error shows the value as it was. -/
def display : RawValue → String
  | .null => ""
  | .text s => s
  | .bool b => if b then "true" else "false"
  | .int n => Text.integerText n.toInt
  | .float x => x.text
  | .decimal d => d.text
  | .dateTime t => String.ofList t.text
  | .offsetDateTime t => String.ofList t.text
  | .time t => String.ofList t.text
  | .uuid u => u.text

end RawValue

end QueryGateway
