import QueryGateway.Text.CaseData

/-!
# Lower case

Two foldings of case. `lower` is the full Unicode mapping: each letter goes to its lower-case form,
the capital I with a dot above becomes an i with a combining dot, and a capital sigma becomes the
final form `ς` at the end of a word and `σ` elsewhere. `asciiLower` touches the letters from A to Z
alone.

Parameter names and context keys compare through `lower`; tokens of the descriptor format,
abbreviations and names of the protocol compare through `equalAsciiCase`.
-/

namespace QueryGateway.Text

/-! ### The full mapping -/

/-- Whether a closed range of the table holds the code point. -/
def inRanges (table : List (Nat × Nat)) (n : Nat) : Bool :=
  table.any fun r => r.1 ≤ n && n ≤ r.2

/-- A character with case that ends the search for the border of a word. -/
def isCased (c : Char) : Bool :=
  inRanges casedRanges c.toNat

/-- A character that the search for the border of a word looks through. -/
def isCaseIgnorable (c : Char) : Bool :=
  inRanges caseIgnorableRanges c.toNat

/-- The lower-case form of every letter but the two special ones: one has a form of two characters,
and the form of the other depends on where it stands. -/
def lowerChar (c : Char) : Char :=
  if c.toNat < 0x80 then
    if 'A' ≤ c && c ≤ 'Z' then Char.ofNat (c.toNat + 32) else c
  else
    match lowerRuns.find? (·.contains c.toNat) with
    | some run => Char.ofNat (c.toNat + run.offset).toNat
    | none => c

/-- Whether the first character that is not looked through is cased. -/
def meetsCased (cs : List Char) : Bool :=
  match cs.dropWhile isCaseIgnorable with
  | c :: _ => isCased c
  | [] => false

/-- **The form of a capital sigma** between the characters `before`, nearest first, and `after`: a
sigma ends its word when a cased letter stands before it and none after it. -/
def lowerSigma (before after : List Char) : Char :=
  if meetsCased before && !meetsCased after then 'ς' else 'σ'

/-- The lower-case form of one character between its neighbours. -/
def lowerAt (before : List Char) (c : Char) (after : List Char) : List Char :=
  if c = 'Σ' then [lowerSigma before after]
  else if c = 'İ' then ['i', '\u0307']
  else [lowerChar c]

/-- The lower-case form of the characters that follow `before`, which is held nearest first. -/
def lowerFrom (before : List Char) : List Char → List Char
  | [] => []
  | c :: after => lowerAt before c after ++ lowerFrom (c :: before) after

/-- **The full lower-case mapping** on characters. -/
def lowerChars (cs : List Char) : List Char :=
  lowerFrom [] cs

/-- The full lower-case mapping on text. -/
def lower (s : String) : String :=
  String.ofList (lowerChars s.toList)

/-! ### ASCII letters alone -/

/-- The lower-case form of a letter from A to Z, and any other character unchanged. -/
def asciiLowerChar (c : Char) : Char :=
  if 'A' ≤ c && c ≤ 'Z' then Char.ofNat (c.toNat + 32) else c

/-- The text with the letters from A to Z in lower case. -/
def asciiLower (s : String) : String :=
  String.ofList (s.toList.map asciiLowerChar)

/-- Equality of texts apart from the case of ASCII letters. -/
def equalAsciiCase (s t : String) : Bool :=
  s.toList.map asciiLowerChar == t.toList.map asciiLowerChar

end QueryGateway.Text
