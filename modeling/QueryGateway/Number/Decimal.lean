import QueryGateway.Text.Digits

/-!
# Decimal numbers

Exact decimal numbers: an integer of digits and a scale, with the value `digits * 10 ^ (-scale)`. A
decimal keeps the scale it was given, so `1.50` and `1.5` are different decimals of one value.

`Decimal.ofText?` reads a plain or an exponent form; `Decimal.text` writes a plain form while few
zeros have to be added and an exponent form otherwise.
-/

namespace QueryGateway.Number

open Text

/-- **A decimal number,** `digits * 10 ^ (-scale)`. The scale is part of the number: one that ends
in zeros after the point is written with them. -/
structure Decimal where
  /-- The digits, with the sign. -/
  digits : Int
  /-- The number of digits after the point; negative if zeros stand before it. -/
  scale : Int
deriving DecidableEq

namespace Decimal

/-- The decimal of an integer. -/
def ofInt (n : Int) : Decimal :=
  ⟨n, 0⟩

/-! ### Reading -/

/-- The value of the digits of a numeral. Lines may stand between the digits and after them, but not
in front. -/
def unsignedDigits? (cs : List Char) : Option Nat :=
  match cs with
  | [] => none
  | '_' :: _ => none
  | _ =>
    let ds := cs.filter (· != '_')
    if ds.all Char.isDigit then some (valueOfDigits ds) else none

/-- The value of the digits of a numeral after a plus sign. A second plus sign is no digit. -/
def positiveDigits? (cs : List Char) : Option Nat :=
  match cs with
  | '+' :: '+' :: _ => none
  | '+' :: rest => unsignedDigits? rest
  | _ => unsignedDigits? cs

/-- The value of the digits of a numeral with their sign. The digits after a minus sign have no
further sign. -/
def signedDigits? (cs : List Char) : Option Int :=
  match cs with
  | '-' :: rest => (unsignedDigits? rest).map fun n => -(n : Int)
  | _ => (positiveDigits? cs).map fun n => (n : Int)

/-- The digits on both sides of the point, and how many stand after it. A point at the very end
counts as none. -/
def splitPoint (cs : List Char) : List Char × Nat :=
  match cs.dropWhile (· != '.') with
  | '.' :: after => (cs.takeWhile (· != '.') ++ after, (after.filter (· != '_')).length)
  | _ => (cs, 0)

/-- Scales beyond sixty-four bits are refused. -/
def isScale (n : Int) : Bool :=
  -Int.pow 2 63 ≤ n && n < Int.pow 2 63

/-- **Reading a decimal:** signed digits with an optional point among them, and an optional power of
ten after a letter `e` of either case. -/
def ofText? (cs : List Char) : Option Decimal := do
  let isMark := fun (c : Char) => c = 'e' || c = 'E'
  -- behind the mark there has to be a number; without a mark the exponent is zero
  let exponent ←
    match cs.dropWhile (!isMark ·) with
    | [] => some 0
    | _ :: ds => signed? ds
  let (ds, places) := splitPoint (cs.takeWhile (!isMark ·))
  let value ← signedDigits? ds
  let scale := (places : Int) - exponent
  if isScale scale then some ⟨value, scale⟩ else none

/-! ### Writing -/

/-- The most zeros that a plain form puts between the point and the first digit. -/
def mostLeadingZeros : Nat := 5

/-- The most zeros that a plain form puts after the last digit. -/
def mostTrailingZeros : Nat := 15

/-- The digits with a point after the first, if there is more than one. -/
def withLeadingPoint (ds : List Char) : List Char :=
  match ds with
  | [] => []
  | [d] => [d]
  | d :: rest => d :: '.' :: rest

/-- The text of the digits of a positive number with a scale. Where the point falls far outside the
digits the text has an exponent, and otherwise the zeros are written out. -/
def magnitudeText (ds : List Char) (scale : Int) : List Char :=
  if 0 < scale then
    if ds.length + mostLeadingZeros < scale.toNat then
      withLeadingPoint ds ++ 'E' :: '-' :: Text.digits (scale.toNat - (ds.length - 1))
    else withPoint ds scale.toNat
  else
    let zeros := (-scale).toNat
    if zeros ≤ mostTrailingZeros then ds ++ List.replicate zeros '0'
    else ds ++ 'e' :: '+' :: Text.digits zeros

/-- **The text of a decimal.** Zero is `0` at every scale; any other number has a minus in front if
it is below zero, and then its digits with the point. -/
def text (d : Decimal) : String :=
  if d.digits = 0 then "0"
  else
    let body := magnitudeText (Text.digits d.digits.natAbs) d.scale
    String.ofList (if d.digits < 0 then '-' :: body else body)

end Decimal

end QueryGateway.Number
