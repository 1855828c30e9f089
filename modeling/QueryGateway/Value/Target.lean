import QueryGateway.Calendar.Time
import QueryGateway.Number.Binary
import QueryGateway.Number.Decimal
import QueryGateway.Uuid

/-!
# Typed values

The thirteen types a parameter can have and the values of those types. Each `SqlValue` belongs to
exactly one `Target`.
-/

namespace QueryGateway

open Calendar Number

/-- **The types of parameters,** thirteen in number. Declared types come down to these, and values
are converted to one of them before they travel. -/
inductive Target where
  | bigInt
  | int
  | smallInt
  | tinyInt
  | bool
  | text
  | dateTime
  | offsetDateTime
  | time
  | decimal
  | float
  | real
  | uuid
deriving DecidableEq

/-- **A typed value,** one form for each target. It is what is left of a value once its target is
known, and all that the encoder sees. -/
inductive SqlValue where
  | bigInt (n : Int64)
  | int (n : Int32)
  | smallInt (n : Int16)
  | tinyInt (n : UInt8)
  | bool (b : Bool)
  | text (s : String)
  | dateTime (t : DateTime)
  | offsetDateTime (t : OffsetDateTime)
  | time (t : TimeOfDay)
  | decimal (d : Decimal)
  | float (x : Double)
  | real (x : Single)
  | uuid (u : Uuid)
deriving DecidableEq

/-- The target a value belongs to. It is read off the form of the value alone, so a value has one
target and needs no type beside it. -/
def SqlValue.target : SqlValue → Target
  | .bigInt _ => .bigInt
  | .int _ => .int
  | .smallInt _ => .smallInt
  | .tinyInt _ => .tinyInt
  | .bool _ => .bool
  | .text _ => .text
  | .dateTime _ => .dateTime
  | .offsetDateTime _ => .offsetDateTime
  | .time _ => .time
  | .decimal _ => .decimal
  | .float _ => .float
  | .real _ => .real
  | .uuid _ => .uuid

/-- Whether a value equals itself. What is not a number equals nothing. -/
def SqlValue.isComparable : SqlValue → Bool
  | .float x => !x.isNaN
  | .real x => !x.isNaN
  | _ => true

end QueryGateway
