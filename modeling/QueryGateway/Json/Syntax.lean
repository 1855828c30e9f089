import QueryGateway.Text.Digits

/-!
# Reading JSON

The syntax of JSON texts. A tree keeps what is written: the digits of numbers, all members of an
object in order and with repetitions, and of strings the characters, or nothing if an escape names
half of a character. What the parts mean is left to those who use them.
-/

namespace QueryGateway.Json

open Text

/-! ### Trees -/

/-- A number as it is written. The digits are kept, since the value of a long number depends on
where its point and its exponent put it. -/
structure Numeral where
  /-- Whether a minus sign stands in front. -/
  isNegative : Bool
  /-- The digits before the point. -/
  whole : List Char
  /-- The digits after the point, if there is one. -/
  fraction : Option (List Char)
  /-- The exponent, if there is one. -/
  exponent : Option Int
deriving DecidableEq

/-- **A JSON text as a tree.** Nothing is decided here about what a number is worth, and members of
one name stand side by side: that is up to those who read the tree. -/
inductive Tree where
  | null
  | bool (b : Bool)
  | number (n : Numeral)
  /-- A string; nothing stands for one that is no text. -/
  | string (s : Option String)
  | array (items : List Tree)
  | object (members : List (Option String × Tree))

/-! ### Blanks and numbers -/

/-- The rest after the blanks in front. -/
def skipSpaces (cs : List Char) : List Char :=
  cs.dropWhile fun c => c = ' ' || c = '\n' || c = '\t' || c = '\r'

/-- The digits in front, at least one, and the rest. -/
def takeDigits? (cs : List Char) : Option (List Char × List Char) :=
  let ds := cs.takeWhile Char.isDigit
  if ds.isEmpty then none else some (ds, cs.drop ds.length)

/-- The digits of a whole number in front, of which zero alone begins with a zero, and the rest. -/
def takeWhole? (cs : List Char) : Option (List Char × List Char) := do
  let (ds, rest) ← takeDigits? cs
  if ds.head? = some '0' && ds.length ≠ 1 then none else some (ds, rest)

/-- The fraction in front, if there is one, and the rest. -/
def takeFraction? : List Char → Option (Option (List Char) × List Char)
  | '.' :: cs => (takeDigits? cs).map fun (ds, rest) => (some ds, rest)
  | cs => some (none, cs)

/-- The sign and the digits of an exponent in front, and the rest. -/
def takePower? : List Char → Option (Int × List Char)
  | '+' :: cs => (takeDigits? cs).map fun (ds, rest) => ((valueOfDigits ds : Int), rest)
  | '-' :: cs => (takeDigits? cs).map fun (ds, rest) => (-(valueOfDigits ds : Int), rest)
  | cs => (takeDigits? cs).map fun (ds, rest) => ((valueOfDigits ds : Int), rest)

/-- The exponent in front, if there is one, and the rest. -/
def takeExponent? : List Char → Option (Option Int × List Char)
  | 'e' :: cs => (takePower? cs).map fun (n, rest) => (some n, rest)
  | 'E' :: cs => (takePower? cs).map fun (n, rest) => (some n, rest)
  | cs => some (none, cs)

/-- **The number in front,** after its sign, and the rest. The three parts follow one after the
other, and only the first has to be there. -/
def takeNumeral? (isNegative : Bool) (cs : List Char) : Option (Numeral × List Char) := do
  let (whole, cs) ← takeWhole? cs
  let (fraction, cs) ← takeFraction? cs
  let (exponent, cs) ← takeExponent? cs
  return (⟨isNegative, whole, fraction, exponent⟩, cs)

/-! ### Strings -/

/-- What a string is written with. An escape by a code gives half a character at times, so units are
put together before they are characters. -/
inductive CodeUnit where
  /-- A character. -/
  | char (c : Char)
  /-- The number of a code unit of sixteen bits. -/
  | code (n : Nat)

/-- The characters of the escapes of one letter. The letter for codes is not among them, as four
digits follow it. -/
def simpleEscape? (c : Char) : Option Char :=
  if c = '"' || c = '\\' || c = '/' then some c
  else if c = 'b' then some '\x08'
  else if c = 'f' then some '\x0c'
  else if c = 'n' then some '\n'
  else if c = 'r' then some '\r'
  else if c = 't' then some '\t'
  else none

/-- The units of a string behind its opening quote, and the rest behind the closing one. Control
characters have to be escaped. -/
def takeUnits? : List Char → Option (List CodeUnit × List Char)
  | [] => none
  | '"' :: cs => some ([], cs)
  | '\\' :: 'u' :: a :: b :: c :: d :: cs =>
    match hexNatural? [a, b, c, d], takeUnits? cs with
    | some n, some (units, rest) => some (.code n :: units, rest)
    | _, _ => none
  | '\\' :: c :: cs =>
    match simpleEscape? c, takeUnits? cs with
    | some e, some (units, rest) => some (.char e :: units, rest)
    | _, _ => none
  | c :: cs =>
    if c = '\\' || c.toNat < 0x20 then none
    else (takeUnits? cs).map fun (units, rest) => (.char c :: units, rest)

/-- The character of two code units that belong together. -/
def pairedChar? (high low : Nat) : Option Char :=
  if 0xD800 ≤ high && high ≤ 0xDBFF && 0xDC00 ≤ low && low ≤ 0xDFFF then
    some (Char.ofNat (0x10000 + (high - 0xD800) * 0x400 + (low - 0xDC00)))
  else none

/-- The characters of units, unless half of a character stands alone: then the string is no text,
though it is read over without an error. -/
def charsOfUnits? : List CodeUnit → Option (List Char)
  | [] => some []
  | .char c :: rest => (charsOfUnits? rest).map (c :: ·)
  -- only two escapes side by side can be the halves of one character
  | .code high :: .code low :: rest =>
    match pairedChar? high low with
    | some c => (charsOfUnits? rest).map (c :: ·)
    | none =>
      if high.isValidChar then (charsOfUnits? (.code low :: rest)).map (Char.ofNat high :: ·)
      else none
  | .code n :: rest =>
    if n.isValidChar then (charsOfUnits? rest).map (Char.ofNat n :: ·) else none

/-- **The string in front,** behind its opening quote, and the rest. -/
def takeString? (cs : List Char) : Option (Option String × List Char) :=
  (takeUnits? cs).map fun (units, rest) => ((charsOfUnits? units).map String.ofList, rest)

/-! ### Values -/

/-- The rest after a word, which has to stand in front. -/
def skipWord? (word : String) (cs : List Char) : Option (List Char) :=
  if word.toList.isPrefixOf cs then some (cs.drop word.length) else none

mutual

/-- The value in front, and the rest. The count bounds the depth of the calls. -/
def takeValue? : Nat → List Char → Option (Tree × List Char)
  | 0, _ => none
  | n + 1, cs =>
    match skipSpaces cs with
    | '"' :: cs => (takeString? cs).map fun (s, rest) => (.string s, rest)
    | '[' :: cs =>
      match skipSpaces cs with
      | ']' :: rest => some (.array [], rest)
      | inner => (takeItems? n inner).map fun (items, rest) => (.array items, rest)
    | '\x7b' :: cs =>
      match skipSpaces cs with
      | '\x7d' :: rest => some (.object [], rest)
      | inner => (takeMembers? n inner).map fun (members, rest) => (.object members, rest)
    | '-' :: cs => (takeNumeral? true cs).map fun (x, rest) => (.number x, rest)
    | 't' :: cs => (skipWord? "rue" cs).map fun rest => (.bool true, rest)
    | 'f' :: cs => (skipWord? "alse" cs).map fun rest => (.bool false, rest)
    | 'n' :: cs => (skipWord? "ull" cs).map fun rest => (.null, rest)
    | cs => (takeNumeral? false cs).map fun (x, rest) => (.number x, rest)

/-- The items of an array up to its end, at least one, and the rest. -/
def takeItems? : Nat → List Char → Option (List Tree × List Char)
  | 0, _ => none
  | n + 1, cs =>
    match takeValue? n cs with
    | none => none
    | some (item, rest) =>
      match skipSpaces rest with
      | ']' :: rest => some ([item], rest)
      | ',' :: rest => (takeItems? n rest).map fun (items, rest) => (item :: items, rest)
      | _ => none

/-- The members of an object up to its end, at least one, and the rest. -/
def takeMembers? : Nat → List Char → Option (List (Option String × Tree) × List Char)
  | 0, _ => none
  | n + 1, cs =>
    match skipSpaces cs with
    | '"' :: cs =>
      match takeString? cs with
      | none => none
      | some (name, rest) =>
        match skipSpaces rest with
        | ':' :: rest =>
          match takeValue? n rest with
          | none => none
          | some (value, rest) =>
            match skipSpaces rest with
            | '\x7d' :: rest => some ([(name, value)], rest)
            | ',' :: rest =>
              (takeMembers? n rest).map fun (members, rest) => ((name, value) :: members, rest)
            | _ => none
        | _ => none
    | _ => none

end

/-! ### No calls left -/

theorem takeValue?_zero (cs : List Char) : takeValue? 0 cs = none := by
  rw [takeValue?]

theorem takeItems?_zero (cs : List Char) : takeItems? 0 cs = none := by
  rw [takeItems?]

theorem takeMembers?_zero (cs : List Char) : takeMembers? 0 cs = none := by
  rw [takeMembers?]

/-! ### Texts -/

/-- **Reading a JSON text.** Spaces may stand around the value, and nothing else may stand behind
it. The count that bounds the depth is more than a text of that length can need. -/
def parse? (s : String) : Option Tree :=
  let cs := s.toList
  match takeValue? (2 * cs.length + 2) cs with
  | some (tree, rest) => if (skipSpaces rest).isEmpty then some tree else none
  | none => none

end QueryGateway.Json
