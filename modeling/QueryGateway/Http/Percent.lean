import QueryGateway.Text.Digits
import QueryGateway.Text.Split
import QueryGateway.Text.Utf8

/-!
# Percent encoding

Octets in addresses are written with a percent sign and two hexadecimal digits. A percent sign that
is not followed by two such digits stands for itself. In the pairs of a query a plus sign is a space
besides, and octets that are no text are replaced; in a path they make the whole unreadable.
-/

namespace QueryGateway.Http

open Text

/-- The octet of two hexadecimal digits. -/
def octet? (high low : UInt8) : Option UInt8 := do
  let h ← hexValue? (Char.ofNat high.toNat)
  let l ← hexValue? (Char.ofNat low.toNat)
  return UInt8.ofNat (16 * h + l)

/-- **Decoding octets.** A percent sign without two hexadecimal digits behind it stands for itself,
so nothing is refused; what comes out need not be text. -/
def percentDecode : Octets → Octets
  | [] => []
  | a :: b :: c :: rest =>
    if a = 0x25 then
      match octet? b c with
      | some o => o :: percentDecode rest
      | none => a :: percentDecode (b :: c :: rest)
    else a :: percentDecode (b :: c :: rest)
  | a :: rest => a :: percentDecode rest

/-- The text of a part of a path, if its octets are text. -/
def decodePathPart? (s : String) : Option String :=
  Utf8.decode? (percentDecode (Utf8.encode s))

/-- The text of a name or value of a query. -/
def decodeQueryPart (cs : List Char) : String :=
  let spaced := cs.map fun c => if c = '+' then ' ' else c
  Utf8.decodeLossy (percentDecode (Utf8.encode (String.ofList spaced)))

/-- The name and the value of a piece of a query, with the first equals sign between them. -/
def queryPair (piece : List Char) : String × String :=
  let (name, value) := cutAt '=' piece
  (decodeQueryPart name, decodeQueryPart (value.getD []))

/-- **The pairs of a query:** its pieces between ampersands, without the empty ones. -/
def queryPairs (query : String) : List (String × String) :=
  ((splitChars '&' query.toList).filter (!·.isEmpty)).map queryPair

end QueryGateway.Http
