import QueryGateway.Json.Syntax
import QueryGateway.Json.Value

/-!
# JSON values of JSON texts

What a JSON text means. The members of an object are sorted by name, and the last of a name wins.
Whole numbers of sixty-four bits are kept; every other number becomes one of double precision, by
one multiplication or by divisions with powers of ten, so that its last digits may differ from those
that are written. A text that is nested too deeply or holds a number beyond all bounds means
nothing.
-/

namespace QueryGateway.Json

open Number Text

/-! ### Numbers -/

/-- The greatest natural number of sixty-four bits. -/
def greatestNatural : Nat := Nat.pow 2 64 - 1

/-- A number while its digits are read: the digits that were taken and a power of ten. -/
structure Accumulator where
  significand : Nat := 0
  exponent : Int := 0
  /-- Whether a digit did not fit, so that no more digits are taken. -/
  isFull : Bool := false

namespace Accumulator

/-- Reads a digit before the point. One that does not fit only counts. -/
def addWhole (a : Accumulator) (digit : Nat) : Accumulator :=
  if a.isFull then { a with exponent := a.exponent + 1 }
  else if greatestNatural < 10 * a.significand + digit then
    { a with exponent := a.exponent + 1, isFull := true }
  else { a with significand := 10 * a.significand + digit }

/-- Reads a digit behind the point. One that does not fit is dropped, and so is all that follows. -/
def addFraction (a : Accumulator) (digit : Nat) : Accumulator :=
  if a.isFull then a
  else if greatestNatural < 10 * a.significand + digit then { a with isFull := true }
  else { a with significand := 10 * a.significand + digit, exponent := a.exponent - 1 }

/-- The digits of a numeral. Behind the point there is a new chance to fit. -/
def ofNumeral (n : Numeral) : Accumulator :=
  let whole : Accumulator := n.whole.foldl (fun a c => addWhole a (digitValue c)) {}
  (n.fraction.getD []).foldl (fun a c => addFraction a (digitValue c))
    { whole with isFull := false }

end Accumulator

/-- A power of ten in double precision. -/
def powerOfTen (k : Nat) : Double :=
  .ofMagnitude .double false (Format.double.roundRatio (Nat.pow 10 k) 1)

/-- The greatest power of ten in double precision. -/
def greatestPower : Nat := 308

/-- A product of positive numbers, rounded. -/
def multiply (x y : Double) : Double :=
  .ofMagnitude .double false
    (Format.double.roundRatio (x.units * y.units) (Nat.pow 2 (2 * Format.double.unitExponent)))

/-- A quotient of positive numbers, rounded. -/
def divide (x y : Double) : Double :=
  .ofMagnitude .double false (Format.double.roundRatio x.units y.units)

/-- A number divided by a power of ten. A power beyond the greatest is divided by in steps, and
after the given number of steps nothing is left. -/
def divideByPower : Nat → Double → Nat → Double
  | 0, _, _ => .ofMagnitude .double false 0
  | steps + 1, x, k =>
    if k ≤ greatestPower then divide x (powerOfTen k)
    else divideByPower steps (divide x (powerOfTen greatestPower)) (k - greatestPower)

/-- The magnitude of `significand * 10 ^ exponent` in double precision, unless it is beyond all
bounds. -/
def scaled? (significand : Nat) (exponent : Int) : Option Double :=
  let x : Double := .ofInt .double significand
  if significand = 0 then some x
  else if exponent < 0 then some (divideByPower 4 x (-exponent).toNat)
  else if exponent ≤ greatestPower then
    let product := multiply x (powerOfTen exponent.toNat)
    if product.isInfinite then none else some product
  else none

/-- A number with a sign. -/
def withSign (isNegative : Bool) (x : Double) : Double :=
  .ofMagnitude .double isNegative x.magnitude

/-- **The value of a numeral.** A negative zero is not whole. What is written without fraction and
exponent stays an integer if it fits into sixty-four bits with or without sign; all else becomes a
number in double precision, if that is not beyond its greatest. -/
def Numeral.value? (n : Numeral) : Option Json :=
  let a := Accumulator.ofNumeral n
  let isWhole := n.fraction.isNone && n.exponent.isNone && a.exponent = 0
  if isWhole && !n.isNegative then some (.integer a.significand)
  -- a negative number that does not fit is a floating-point number like any other
  else if isWhole && 0 < a.significand && a.significand ≤ Nat.pow 2 63 then
    some (.integer (-(a.significand : Int)))
  else
    (scaled? a.significand (a.exponent + n.exponent.getD 0)).map fun x =>
      .float (withSign n.isNegative x)

/-! ### Values -/

/-- The members of an object with one more, sorted by name. It takes the place of one of its
name. -/
def insertMember (name : String) (value : Json) : List (String × Json) → List (String × Json)
  | [] => [(name, value)]
  | member :: rest =>
    if name = member.1 then (name, value) :: rest
    else if name < member.1 then (name, value) :: member :: rest
    else member :: insertMember name value rest

mutual

/-- The value of a tree that is nested less deeply than the given number of levels. -/
def valueWithin? : Nat → Tree → Option Json
  | _, .null => some .null
  | _, .bool b => some (.bool b)
  | _, .number n => n.value?
  | _, .string s => s.map .string
  | 0, .array _ => none
  | n + 1, .array items => (itemsWithin? n items).map .array
  | 0, .object _ => none
  | n + 1, .object members => (membersWithin? n [] members).map .object

/-- The values of the items of an array. One that has none leaves the array without a value. -/
def itemsWithin? : Nat → List Tree → Option (List Json)
  | _, [] => some []
  | n, item :: rest =>
    match valueWithin? n item, itemsWithin? n rest with
    | some value, some values => some (value :: values)
    | _, _ => none

/-- The values of the members of an object, after some have been sorted. -/
def membersWithin? : Nat → List (String × Json) → List (Option String × Tree) →
    Option (List (String × Json))
  | _, sorted, [] => some sorted
  | _, _, (none, _) :: _ => none
  | n, sorted, (some name, item) :: rest =>
    match valueWithin? n item with
    | some value => membersWithin? n (insertMember name value sorted) rest
    | none => none

end

/-- The most levels of arrays and objects. -/
def deepestLevel : Nat := 127

/-- **The value of a JSON text.** -/
def value? (s : String) : Option Json :=
  (parse? s).bind (valueWithin? deepestLevel)

end QueryGateway.Json
