import QueryGateway.Text.Digits
import QueryGateway.Text.LowerCase
import QueryGateway.Text.Split

/-!
# Universally unique identifiers

An identifier of 128 bits. It is written in five groups of lower-case hexadecimal digits with
hyphens between them, and read in either case with or without the hyphens; the form with hyphens may
also stand in braces or after the words `urn:uuid:`.
-/

namespace QueryGateway

open Text

/-- **An identifier of 128 bits.** -/
structure Uuid where
  /-- The bits. -/
  bits : BitVec 128
deriving DecidableEq

namespace Uuid

/-- The lengths of the groups of digits. -/
def groups : List Nat := [8, 4, 4, 4, 12]

/-- The identifier of thirty-two hexadecimal digits. -/
def ofDigits? (cs : List Char) : Option Uuid :=
  if cs.length = 32 then (hexNatural? cs).map fun n => ⟨BitVec.ofNat 128 n⟩ else none

/-- The identifier in groups with hyphens between them. -/
def ofGroups? (cs : List Char) : Option Uuid :=
  let parts := splitChars '-' cs
  if parts.map List.length = groups then ofDigits? parts.flatten else none

/-- What stands before an identifier in the form of a resource name. -/
def resourceName : List Char := "urn:uuid:".toList

/-- **Reading an identifier** in any of its four forms, which their lengths tell apart. -/
def ofText? (cs : List Char) : Option Uuid :=
  if cs.length = 32 then ofDigits? cs
  else if cs.length = 36 then ofGroups? cs
  else if cs.length = 38 then
    if cs.head? = some '\x7b' && cs.getLast? = some '\x7d' then ofGroups? (cs.drop 1).dropLast
    else none
  else if cs.length = 45 then
    if (cs.take resourceName.length).map asciiLowerChar = resourceName then
      ofGroups? (cs.drop resourceName.length)
    else none
  else none

/-- The digits cut into groups of the given lengths. -/
def cut : List Nat → List Char → List (List Char)
  | [], _ => []
  | n :: rest, cs => cs.take n :: cut rest (cs.drop n)

/-- **The text of an identifier.** -/
def text (u : Uuid) : String :=
  join "-" ((cut groups (hexDigits 32 u.bits.toNat)).map String.ofList)

end Uuid

end QueryGateway
