import QueryGateway.Number.Binary

/-!
# Shortest decimal forms

The shortest decimal number that reads back as a given floating-point number. The reals that round
to a number `significand * 2 ^ shift` form an interval, ends included exactly if the significand is
even. The form is a multiple of the coarsest power of ten that has a multiple in the interval, and
of two such neighbours the one nearer to the number.

`Number.shortest` finds it in exact arithmetic, and `positional` writes a number without an
exponent.
-/

namespace QueryGateway.Number

open Text

/-- Which of two multiples at equal distance is taken. Plain texts take the greater one and JSON the
even one. -/
inductive Tie where
  /-- The greater one. -/
  | up
  /-- The even one. -/
  | even
deriving DecidableEq

/-- The interval of the reals that round to a number. Its ends and the number itself are counted in
quarters of a unit. -/
structure RoundingInterval where
  /-- The lower end. -/
  low : Nat
  /-- The number. -/
  middle : Nat
  /-- The upper end. -/
  high : Nat
  /-- Whether the ends belong to the interval. -/
  closed : Bool

/-- The rounding interval of a finite positive number. Below the least significand of a power of two
the numbers lie twice as close. -/
def Binary.interval {f : Format} (x : Binary f) : RoundingInterval :=
  let m := x.significand
  let below := if m = f.hidden && 0 < x.shift then 1 else 2
  { low := (4 * m - below) * Nat.pow 2 x.shift
    middle := 4 * m * Nat.pow 2 x.shift
    high := (4 * m + 2) * Nat.pow 2 x.shift
    closed := m % 2 = 0 }

/-- Whether a count of quarters lies in the interval. -/
def RoundingInterval.contains (i : RoundingInterval) (n : Nat) : Bool :=
  if i.closed then i.low ≤ n && n ≤ i.high else i.low < n && n < i.high

/-- The multiple of the step in an interval that is nearest to its number, as a count of steps. -/
def RoundingInterval.nearest? (i : RoundingInterval) (tie : Tie) (step : Nat) : Option Nat :=
  let q := i.middle / step
  let r := i.middle % step
  match i.contains (q * step), i.contains ((q + 1) * step) with
  | true, false => some q
  | false, true => some (q + 1)
  | false, false => none
  | true, true =>
    if 2 * r < step then some q
    else if step < 2 * r then some (q + 1)
    else
      match tie with
      | .up => some (q + 1)
      | .even => some (q + q % 2)

/-- All ends of an interval multiplied by a common factor. -/
def RoundingInterval.scale (i : RoundingInterval) (k : Nat) : RoundingInterval :=
  { i with low := i.low * k, middle := i.middle * k, high := i.high * k }

/-- The finest power of ten that is tried is minus this number. -/
def finestPower : Nat := 330

/-- The count of powers of ten that are tried. -/
def powerCount : Nat := 640

/-- **The shortest form** of a finite positive number, as a significand and a power of ten. -/
def shortest {f : Format} (tie : Tie) (x : Binary f) : Nat × Int :=
  let interval := x.interval.scale (Nat.pow 10 finestPower)
  let quarter := 4 * Nat.pow 2 f.unitExponent
  let found := (List.range powerCount).reverse.findSome? fun (k : Nat) =>
    (interval.nearest? tie (Nat.pow 10 k * quarter)).map fun d =>
      (d, (k : Int) - (finestPower : Int))
  found.getD (0, 0)

/-- The digits of `significand * 10 ^ exponent` with a point where it is needed and no exponent. -/
def positional (significand : Nat) (exponent : Int) : List Char :=
  let ds := digits significand
  if 0 ≤ exponent then ds ++ List.replicate exponent.toNat '0'
  else withPoint ds (-exponent).toNat

/-- **The text of a number:** its shortest form without an exponent, after a minus sign if the sign
bit is set. -/
def Binary.text {f : Format} (x : Binary f) : String :=
  let sign := if x.isNegative then "-" else ""
  if x.isNaN then "NaN"
  else if x.isInfinite then sign ++ "inf"
  else if x.magnitude = 0 then sign ++ "0"
  else
    let (significand, exponent) := shortest .up x
    sign ++ String.ofList (positional significand exponent)

end QueryGateway.Number
