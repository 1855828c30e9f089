import QueryGateway.Postgres.Numeric
import QueryGateway.Sql.Statement

/-!
# Parameters on the wire

The types under which parameters are announced to the server, and their binary forms. The smallest
integer target has no type of its own on the server and travels as the next larger one.
-/

namespace QueryGateway.Postgres

open Calendar Number

/-- **The types of parameters** on the server: as many as the targets need and no others. -/
inductive ParameterType where
  | int8
  | int4
  | int2
  | bool
  | text
  | timestamp
  | timestampTz
  | time
  | numeric
  | float8
  | float4
  | uuid
deriving DecidableEq

namespace ParameterType

/-- The name of a type, in the capitals in which the types of columns are named as well. -/
def name : ParameterType → String
  | .int8 => "INT8"
  | .int4 => "INT4"
  | .int2 => "INT2"
  | .bool => "BOOL"
  | .text => "TEXT"
  | .timestamp => "TIMESTAMP"
  | .timestampTz => "TIMESTAMPTZ"
  | .time => "TIME"
  | .numeric => "NUMERIC"
  | .float8 => "FLOAT8"
  | .float4 => "FLOAT4"
  | .uuid => "UUID"

/-- The number by which the server knows a type. It is what is sent in place of the name. -/
def oid : ParameterType → Nat
  | .int8 => 20
  | .int4 => 23
  | .int2 => 21
  | .bool => 16
  | .text => 25
  | .timestamp => 1114
  | .timestampTz => 1184
  | .time => 1083
  | .numeric => 1700
  | .float8 => 701
  | .float4 => 700
  | .uuid => 2950

/-- **The type under which a target is announced.** The unsigned bytes go as the smallest signed
integers, for the server has no unsigned ones; all other targets have a type of their own. -/
def ofTarget : Target → ParameterType
  | .bigInt => .int8
  | .int => .int4
  | .smallInt => .int2
  | .tinyInt => .int2
  | .bool => .bool
  | .text => .text
  | .dateTime => .timestamp
  | .offsetDateTime => .timestampTz
  | .time => .time
  | .decimal => .numeric
  | .float => .float8
  | .real => .float4
  | .uuid => .uuid

end ParameterType

/-! ### Times -/

/-- The first day of the year two thousand, from which the server counts. -/
def epoch : Int :=
  Date.daysBeforeYear 2000

/-- The microseconds of a date-time since the epoch. What is less than a microsecond is dropped. -/
def microsSinceEpoch (t : DateTime) : Int :=
  (t.nanos - epoch * (secondsPerDay * nanosPerSecond : Nat)).tdiv 1000

/-- The microseconds of a time of day since midnight. -/
def microsSinceMidnight (t : TimeOfDay) : Int :=
  t.nanosSinceMidnight / 1000

/-! ### Values -/

/-- **The binary form of a value,** unless it is a decimal that has none. -/
def encodeValue? : SqlValue → Option Octets
  | .bigInt n => some (bigEndian 8 n.toInt)
  | .int n => some (bigEndian 4 n.toInt)
  | .smallInt n => some (bigEndian 2 n.toInt)
  | .tinyInt n => some (bigEndian 2 n.toNat)
  | .bool b => some [if b then 1 else 0]
  | .text s => some (Text.Utf8.encode s)
  | .dateTime t => some (bigEndian 8 (microsSinceEpoch t))
  | .offsetDateTime t => some (bigEndian 8 (microsSinceEpoch t.utc))
  | .time t => some (bigEndian 8 (microsSinceMidnight t))
  | .decimal d => (Numeric.ofDecimal d).encode?
  | .float x => some (bigEndian 8 x.bits.toNat)
  | .real x => some (bigEndian 4 x.bits.toNat)
  | .uuid u => some (bigEndian 16 u.bits.toNat)

/-- The type under which a parameter is announced. -/
def announced (v : BindValue) : ParameterType :=
  .ofTarget v.target

/-- What a parameter is on the wire: nothing for a null, octets for a value. -/
inductive Encoded where
  | null
  | octets (bytes : Octets)
  /-- A value without a binary form. -/
  | unencodable
deriving DecidableEq

/-- **The binary form of a parameter.** A null has no octets of its own and goes as such under any
type; a value that has no form makes the command fail. -/
def encode : BindValue → Encoded
  | .null _ => .null
  | .value v =>
    match encodeValue? v with
    | some bytes => .octets bytes
    | none => .unencodable

end QueryGateway.Postgres
