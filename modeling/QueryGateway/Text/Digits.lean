/-!
# Digits

Reading and writing numbers in base ten and sixteen. The readers take ASCII digits alone: digits of
other scripts are no digits here. An empty run of digits has no value.
-/

namespace QueryGateway.Text

/-! ### Base ten -/

/-- The value of an ASCII digit. -/
def digitValue (c : Char) : Nat :=
  c.toNat - '0'.toNat

/-- The value of a run of digits, the most significant first. -/
def valueOfDigits (cs : List Char) : Nat :=
  cs.foldl (fun n c => 10 * n + digitValue c) 0

/-- The value of a text that holds digits and nothing else. -/
def natural? (cs : List Char) : Option Nat :=
  if !cs.isEmpty && cs.all Char.isDigit then some (valueOfDigits cs) else none

/-- The value of an optional sign and a run of digits. -/
def signed? : List Char → Option Int
  | '-' :: cs => (natural? cs).map fun n => -(n : Int)
  | '+' :: cs => (natural? cs).map fun n => (n : Int)
  | cs => (natural? cs).map fun n => (n : Int)

/-- The digits of a number in base ten. -/
def digits (n : Nat) : List Char :=
  Nat.toDigits 10 n

/-- The digits of a number in base ten, with zeros in front up to the given width. -/
def paddedDigits (width n : Nat) : List Char :=
  let ds := digits n
  List.replicate (width - ds.length) '0' ++ ds

/-- A number in base ten, with its sign if it is negative. -/
def integerText (n : Int) : String :=
  if n < 0 then "-" ++ String.ofList (digits n.natAbs) else String.ofList (digits n.natAbs)

/-- The digits with a point before the last `places` of them, and zeros in front as needed. -/
def withPoint (ds : List Char) (places : Nat) : List Char :=
  if places < ds.length then
    ds.take (ds.length - places) ++ '.' :: ds.drop (ds.length - places)
  else '0' :: '.' :: (List.replicate (places - ds.length) '0' ++ ds)

/-! ### Base sixteen -/

/-- The value of a hexadecimal digit of either case; characters of other scripts that look like
digits have none. -/
def hexValue? (c : Char) : Option Nat :=
  if c.isDigit then some (digitValue c)
  else if 'a' ≤ c && c ≤ 'f' then some (c.toNat - 'a'.toNat + 10)
  else if 'A' ≤ c && c ≤ 'F' then some (c.toNat - 'A'.toNat + 10)
  else none

/-- The value of a text that holds hexadecimal digits and nothing else. -/
def hexNatural? (cs : List Char) : Option Nat :=
  if cs.isEmpty then none
  else cs.foldl (fun n c => do return 16 * (← n) + (← hexValue? c)) (some 0)

/-- The lower-case hexadecimal digit of a value below sixteen. -/
def hexDigit (n : Nat) : Char :=
  if n < 10 then Char.ofNat ('0'.toNat + n) else Char.ofNat ('a'.toNat + (n - 10))

/-- The hexadecimal digits of a number, exactly as many as the width says. -/
def hexDigits : Nat → Nat → List Char
  | 0, _ => []
  | width + 1, n => hexDigits width (n / 16) ++ [hexDigit (n % 16)]

end QueryGateway.Text
