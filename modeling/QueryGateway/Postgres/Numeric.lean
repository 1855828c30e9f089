import QueryGateway.Number.Decimal
import QueryGateway.Text.Utf8

/-!
# Decimals on the wire

The binary form of a decimal: groups of four decimal digits, aligned with the point, the position of
the first group, a sign and the number of digits shown after the point. Groups of zeros at the end
are left out. Each count takes sixteen bits, and a decimal that needs more has no binary form.
-/

namespace QueryGateway.Postgres

open Number

/-- The octets of an integer, the most significant first; negative integers in two's complement. -/
def bigEndian (size : Nat) (n : Int) : Octets :=
  let pattern := (n % Nat.pow 2 (8 * size)).toNat
  ((List.range size).map fun i => UInt8.ofNat (pattern / Nat.pow 2 (8 * i))).reverse

/-- **The groups of a decimal,** as they travel: base ten thousand, with the place of the first
group and the number of digits after the point beside them. -/
structure Numeric where
  /-- Whether the decimal is below zero. -/
  isNegative : Bool
  /-- The groups, each below ten thousand, the most significant first. -/
  groups : List Nat
  /-- The power of ten thousand that the first group counts. -/
  weight : Int
  /-- The number of digits after the point. -/
  scale : Int
deriving DecidableEq

/-- The digits of a natural number, the most significant first. -/
def decimalDigits (n : Nat) : List Nat :=
  (Text.digits n).map Text.digitValue

/-- The value of a group of at most four digits that is filled with zeros at the end. -/
def groupValue (ds : List Nat) : Nat :=
  ds.foldl (fun n d => 10 * n + d) 0 * Nat.pow 10 (4 - ds.length)

/-- The digits in groups of four; the last may be shorter. -/
def chunks : List Nat → List (List Nat)
  | a :: b :: c :: d :: rest => [a, b, c, d] :: chunks rest
  | [] => []
  | rest => [rest]

/-- The value of the first group, which holds the given number of digits of the whole; what is
missing of them are zeros. -/
def firstGroup (size : Nat) (ds : List Nat) : List Nat :=
  if size = 0 then []
  else
    let taken := ds.take size
    [taken.foldl (fun n d => 10 * n + d) 0 * Nat.pow 10 (size - taken.length)]

/-- The groups without those at the end that are zero. -/
def dropTrailingZeros (groups : List Nat) : List Nat :=
  (groups.reverse.dropWhile (· = 0)).reverse

namespace Numeric

/-- **The groups of a decimal.** The point stands `length - scale` digits behind the first. -/
def ofDecimal (d : Decimal) : Numeric :=
  let ds := decimalDigits d.digits.natAbs
  let point := (ds.length : Int) - d.scale
  -- the groups are aligned with the point, so the first may be short
  let first := (point % 4).toNat
  { isNegative := d.digits < 0
    groups := dropTrailingZeros (firstGroup first ds ++ (chunks (ds.drop first)).map groupValue)
    weight := if point ≤ 0 then point.tdiv 4 - 1 else (point - 1) / 4
    scale := max 0 d.scale }

/-- Whether a count fits into sixteen bits with a sign. -/
def isShort (n : Int) : Bool :=
  -Int.pow 2 15 ≤ n && n < Int.pow 2 15

/-- The sign on the wire. -/
def signWord (isNegative : Bool) : Int :=
  if isNegative then 0x4000 else 0

/-- **The binary form,** unless a count needs more than sixteen bits. Each of the three counts that
depend on the number is checked, and then all are written one after the other in front of the
groups. -/
def encode? (n : Numeric) : Option Octets :=
  if isShort n.scale && isShort n.weight && isShort n.groups.length then
    some (bigEndian 2 n.groups.length ++ bigEndian 2 n.weight ++
      bigEndian 2 (signWord n.isNegative) ++ bigEndian 2 n.scale ++
      n.groups.flatMap fun (g : Nat) => bigEndian 2 g)
  else none

end Numeric

end QueryGateway.Postgres
