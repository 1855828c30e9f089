import QueryGateway.Calendar.Pattern
import QueryGateway.Value.Raw
import QueryGateway.Value.Target

/-!
# Coercion

Turning untyped values into typed ones. A `Rule` says for one type which values already are of it
and how the others convert; the same rule serves two modes and two forms of the target.

* *Strict* coercion reports why a value does not fit, *lenient* coercion keeps a fallback instead.
* A *nullable* target also takes the absence of a value, and takes an empty text for an absence.

All four are read off one `evaluate`, so they cannot disagree on what converts. The thirteen rules
follow, and `Target.coerce` picks the rule of a target.
-/

namespace QueryGateway

open Calendar Number Text

/-- **Why a value does not fit** a target, which is given by its name. -/
inductive CoercionError where
  /-- No value for a target that needs one. -/
  | nullInput (target : String)
  /-- A value that does not convert. -/
  | conversion (typeName value target : String)
deriving DecidableEq

/-- The wording of an error. -/
def CoercionError.message : CoercionError → String
  | .nullInput target => "cannot convert null input to non-nullable type '" ++ target ++ "'"
  | .conversion typeName value target =>
    "cannot convert value '" ++ value ++ "' of type '" ++ typeName ++ "' to type '" ++ target ++ "'"

/-- **The rule of a type:** which values are of it already, and how others convert. -/
structure Rule (α : Type) where
  /-- The name of the type in error messages. -/
  typeName : String
  /-- A value that is of the type already. -/
  direct : RawValue → Option α
  /-- A value that converts to the type. -/
  convert : RawValue → Option α

/-- What a rule makes of a value. The strict and the lenient ways read one and the same outcome, and
differ only in what they make of the last two. -/
inductive Outcome (α : Type) where
  | value (a : α)
  /-- There is no value to convert. -/
  | absent
  | failed (e : CoercionError)

namespace Rule

variable {α : Type}

/-- **Applying a rule.** For a nullable target an empty text is no value. -/
def evaluate (rule : Rule α) (nullable : Bool) (raw : RawValue) : Outcome α :=
  if raw.isNull then .absent
  else
    match rule.direct raw with
    | some a => .value a
    | none =>
      -- an empty text for a nullable text has been taken as it is by now
      if nullable && raw.display.isEmpty then .absent
      else
        match rule.convert raw with
        | some a => .value a
        | none => .failed (.conversion raw.typeName raw.display rule.typeName)

/-- Strict coercion to a type that needs a value: an absent one is an error of its own, apart from a
failed conversion. -/
def strict (rule : Rule α) (raw : RawValue) : Except CoercionError α :=
  match rule.evaluate false raw with
  | .value a => .ok a
  | .absent => .error (.nullInput rule.typeName)
  | .failed e => .error e

/-- Strict coercion to a type or no value. Here absence is no error, and the empty text counts as
absent unless the type is that of texts. -/
def strictNullable (rule : Rule α) (raw : RawValue) : Except CoercionError (Option α) :=
  match rule.evaluate true raw with
  | .value a => .ok (some a)
  | .absent => .ok none
  | .failed e => .error e

/-- Lenient coercion to a type that needs a value. -/
def lenient (rule : Rule α) (raw : RawValue) (fallback : α) : α :=
  match rule.evaluate false raw with
  | .value a => a
  | _ => fallback

/-- Lenient coercion to a type or no value. -/
def lenientNullable (rule : Rule α) (raw : RawValue) (fallback : Option α) : Option α :=
  match rule.evaluate true raw with
  | .value a => some a
  | _ => fallback

/-! ### Integers -/

/-- A fixed range of integers and its type. The four integer targets are this with bounds of their
own, and one rule serves them all. -/
structure IntegerType (α : Type) where
  /-- The name of the type. -/
  typeName : String
  /-- The least integer of the range. -/
  least : Int
  /-- The greatest integer of the range. -/
  greatest : Int
  /-- The value for an integer of the range. -/
  ofInt : Int → α

/-- The value of an integer, if it lies in the range. -/
def IntegerType.ofInt? (type : IntegerType α) (n : Int) : Option α :=
  if type.least ≤ n ∧ n ≤ type.greatest then some (type.ofInt n) else none

/-- The integer in a text: a sign and digits. A range without negative numbers has no minus sign,
not even before a zero. -/
def IntegerType.ofText? (type : IntegerType α) (cs : List Char) : Option α :=
  if type.least = 0 && cs.head? = some '-' then none else (signed? cs).bind type.ofInt?

/-- **The rule of a range of integers.** Integers convert if they lie in the range, numbers with a
fraction never do, and of all else the text is read. -/
def ofIntegerType (type : IntegerType α) : Rule α where
  typeName := type.typeName
  direct
    | .int n => type.ofInt? n.toInt
    | _ => none
  convert
    | .float _ => none
    | .decimal _ => none
    | .int n => type.ofInt? n.toInt
    | raw => type.ofText? (trimChars raw.display.toList)

/-- Integers of sixty-four bits. -/
def bigInt : Rule Int64 :=
  ofIntegerType ⟨"i64", -Int.pow 2 63, Int.pow 2 63 - 1, Int64.ofInt⟩

/-- Integers of thirty-two bits. -/
def int : Rule Int32 :=
  ofIntegerType ⟨"i32", -Int.pow 2 31, Int.pow 2 31 - 1, Int32.ofInt⟩

/-- Integers of sixteen bits. -/
def smallInt : Rule Int16 :=
  ofIntegerType ⟨"i16", -Int.pow 2 15, Int.pow 2 15 - 1, Int16.ofInt⟩

/-- Naturals of eight bits. -/
def tinyInt : Rule UInt8 :=
  ofIntegerType ⟨"u8", 0, Int.pow 2 8 - 1, fun n => UInt8.ofNat n.toNat⟩

/-! ### Numbers with a fraction -/

/-- **Double precision.** Integers round; texts and decimals are read. A decimal goes through its
text, so it comes to the double nearest to what is written. -/
def float : Rule Double where
  typeName := "f64"
  direct
    | .float x => some x
    | _ => none
  convert
    | .int n => some (.ofInt .double n.toInt)
    | .text s => Binary.ofText? .double (trimChars s.toList)
    | .decimal d => Binary.ofText? .double (trimChars d.text.toList)
    | _ => none

/-- **Single precision.** Integers and numbers of double precision round; texts and decimals are
read. -/
def real : Rule Single where
  typeName := "f32"
  direct _ := none
  convert
    | .int n => some (.ofInt .single n.toInt)
    | .float x => some x.narrow
    | .text s => Binary.ofText? .single (trimChars s.toList)
    | .decimal d => Binary.ofText? .single (trimChars d.text.toList)
    | _ => none

/-- **Decimals.** Integers have scale zero; texts and the texts of floating-point numbers are
read. -/
def decimal : Rule Decimal where
  typeName := "decimal"
  direct
    | .decimal d => some d
    | _ => none
  convert
    | .int n => some (.ofInt n.toInt)
    | .text s => Decimal.ofText? (trimChars s.toList)
    | .float x => Decimal.ofText? (trimChars x.text.toList)
    | _ => none

/-! ### Truth values and texts -/

/-- The truth value in a text: a digit one or zero, or a word in any case. -/
def truth? (s : String) : Option Bool :=
  if s = "1" then some true
  else if s = "0" then some false
  else if equalAsciiCase s "true" then some true
  else if equalAsciiCase s "false" then some false
  else none

/-- **Truth values,** read from the text of any value. The two words are taken in any case, and the
digits one and zero stand for them. -/
def bool : Rule Bool where
  typeName := "bool"
  direct
    | .bool b => some b
    | _ => none
  convert raw := truth? (trim raw.display)

/-- **Texts.** Every value converts to its text, so this is the one rule that fails for no value at
all. -/
def text : Rule String where
  typeName := "text"
  direct
    | .text s => some s
    | _ => none
  convert raw := some raw.display

/-! ### Dates, times and identifiers -/

/-- **Date-times.** A value with an offset is taken to universal time; times, numbers and truth
values do not convert. -/
def dateTime : Rule DateTime where
  typeName := "datetime"
  direct
    | .dateTime t => some t
    | _ => none
  convert
    | .offsetDateTime t => some t.utc
    | .text s => readDateTime? s
    | _ => none

/-- **Date-times with offset.** A value without one is taken as universal time, which is what the
other target stands for as well. -/
def offsetDateTime : Rule OffsetDateTime where
  typeName := "datetimeoffset"
  direct
    | .offsetDateTime t => some t
    | _ => none
  convert
    | .dateTime t => some (.ofUtc t)
    | .text s => readOffsetDateTime? s
    | _ => none

/-- **Times of day.** Only texts convert: a date-time is not cut to its time. -/
def time : Rule TimeOfDay where
  typeName := "time"
  direct
    | .time t => some t
    | _ => none
  convert
    | .text s => readTimeOfDay? s
    | _ => none

/-- **Identifiers.** A text may write one in several ways; nothing else converts. -/
def uuid : Rule Uuid where
  typeName := "uuid"
  direct
    | .uuid u => some u
    | _ => none
  convert
    | .text s => Uuid.ofText? (trimChars s.toList)
    | _ => none

end Rule

/-! ### The rule of a target -/

namespace Target

/-- The name of a target in error messages, which is that of its rule. -/
def typeName : Target → String
  | .bigInt => Rule.bigInt.typeName
  | .int => Rule.int.typeName
  | .smallInt => Rule.smallInt.typeName
  | .tinyInt => Rule.tinyInt.typeName
  | .bool => Rule.bool.typeName
  | .text => Rule.text.typeName
  | .dateTime => Rule.dateTime.typeName
  | .offsetDateTime => Rule.offsetDateTime.typeName
  | .time => Rule.time.typeName
  | .decimal => Rule.decimal.typeName
  | .float => Rule.float.typeName
  | .real => Rule.real.typeName
  | .uuid => Rule.uuid.typeName

/-- A value that is of a target already: it is taken as it is, before any conversion is tried. -/
def direct : Target → RawValue → Option SqlValue
  | .bigInt, raw => (Rule.bigInt.direct raw).map .bigInt
  | .int, raw => (Rule.int.direct raw).map .int
  | .smallInt, raw => (Rule.smallInt.direct raw).map .smallInt
  | .tinyInt, raw => (Rule.tinyInt.direct raw).map .tinyInt
  | .bool, raw => (Rule.bool.direct raw).map .bool
  | .text, raw => (Rule.text.direct raw).map .text
  | .dateTime, raw => (Rule.dateTime.direct raw).map .dateTime
  | .offsetDateTime, raw => (Rule.offsetDateTime.direct raw).map .offsetDateTime
  | .time, raw => (Rule.time.direct raw).map .time
  | .decimal, raw => (Rule.decimal.direct raw).map .decimal
  | .float, raw => (Rule.float.direct raw).map .float
  | .real, raw => (Rule.real.direct raw).map .real
  | .uuid, raw => (Rule.uuid.direct raw).map .uuid

/-- A value that converts to a target, by the target's own rule. What comes out is of the target,
whatever went in. -/
def convert : Target → RawValue → Option SqlValue
  | .bigInt, raw => (Rule.bigInt.convert raw).map .bigInt
  | .int, raw => (Rule.int.convert raw).map .int
  | .smallInt, raw => (Rule.smallInt.convert raw).map .smallInt
  | .tinyInt, raw => (Rule.tinyInt.convert raw).map .tinyInt
  | .bool, raw => (Rule.bool.convert raw).map .bool
  | .text, raw => (Rule.text.convert raw).map .text
  | .dateTime, raw => (Rule.dateTime.convert raw).map .dateTime
  | .offsetDateTime, raw => (Rule.offsetDateTime.convert raw).map .offsetDateTime
  | .time, raw => (Rule.time.convert raw).map .time
  | .decimal, raw => (Rule.decimal.convert raw).map .decimal
  | .float, raw => (Rule.float.convert raw).map .float
  | .real, raw => (Rule.real.convert raw).map .real
  | .uuid, raw => (Rule.uuid.convert raw).map .uuid

/-- **The rule of a target,** whose values are the typed values. -/
def rule (t : Target) : Rule SqlValue where
  typeName := t.typeName
  direct := t.direct
  convert := t.convert

/-- **Lenient coercion to a target.** A value that does not convert leaves the value that was there
before, if it belongs to the target. -/
def coerce (t : Target) (raw : RawValue) (prior : Option SqlValue) : Option SqlValue :=
  t.rule.lenientNullable raw (prior.filter (·.target = t))

end Target

end QueryGateway
