import QueryGateway.Text.Digits
import QueryGateway.Xml.Chars

/-!
# Character data

What the characters between and inside the tags stand for. A reference stands for one character; a
line end is read as a line feed in text and as a space in an attribute value. Characters that come
from references are kept as they are.
-/

namespace QueryGateway.Xml

open Text

/-! ### Taking the front of a document -/

/-- The characters at the front that satisfy a test, and the rest. A character that no document may
hold ends the reading. -/
def takeAllowed? (p : Char → Bool) : List Char → Option (List Char × List Char)
  | [] => some ([], [])
  | c :: cs =>
    if !isAllowed c then none
    else if p c then (takeAllowed? p cs).map fun (taken, rest) => (c :: taken, rest)
    else some ([], c :: cs)

/-- The characters up to a mark, and the rest after it. A character that no document may hold ends
the search, even before a mark. -/
def takeUntil? (mark : List Char) : List Char → Option (List Char × List Char)
  | [] => none
  | c :: cs =>
    if mark.isPrefixOf (c :: cs) then some ([], (c :: cs).drop mark.length)
    else if !isAllowed c then none
    else (takeUntil? mark cs).map fun (taken, rest) => (c :: taken, rest)

/-- The rest after the given characters, which have to stand at the front. -/
def skip? (mark cs : List Char) : Option (List Char) :=
  if mark.isPrefixOf cs then some (cs.drop mark.length) else none

/-- The rest after the blanks at the front. -/
def skipSpaces (cs : List Char) : List Char :=
  cs.dropWhile isSpace

/-- The name at the front, and the rest. -/
def takeName? : List Char → Option (List Char × List Char)
  | [] => none
  | c :: cs =>
    if isNameStart c then some (c :: cs.takeWhile isNameChar, cs.dropWhile isNameChar) else none

/-! ### References -/

/-- The character of a number. A number of no character stands for the replacement character; a
number of a character that no document may hold stands for none. -/
def charOfNumber? (n : Nat) : Option Char :=
  if Nat.pow 2 32 ≤ n then none
  else
    let c := if n.isValidChar then Char.ofNat n else '\uFFFD'
    if isAllowed c then some c else none

/-- The characters that have names. -/
def namedChars : List (String × Char) :=
  [("quot", '"'), ("amp", '&'), ("apos", '\x27'), ("lt", '<'), ("gt", '>')]

/-- The character of a named reference. -/
def charOfName? (name : List Char) : Option Char :=
  (namedChars.find? fun p => p.1.toList = name).map (·.2)

/-- The character of a reference, which stands after the ampersand, and the rest after its number
or name. -/
def takeReferent? : List Char → Option (Char × List Char)
  -- the letter of a hexadecimal number is a small one
  | '#' :: 'x' :: cs =>
    let isHex := fun (c : Char) => (hexValue? c).isSome
    ((hexNatural? (cs.takeWhile isHex)).bind charOfNumber?).map fun c => (c, cs.dropWhile isHex)
  | '#' :: cs =>
    ((natural? (cs.takeWhile Char.isDigit)).bind charOfNumber?).map fun c =>
      (c, cs.dropWhile Char.isDigit)
  | cs => (takeName? cs).bind fun (name, rest) => (charOfName? name).map fun c => (c, rest)

/-- **The reference at the front,** after its ampersand: the character it stands for, and the rest
after its semicolon. -/
def takeReference? (cs : List Char) : Option (Char × List Char) := do
  let (c, rest) ← takeReferent? cs
  return (c, ← skip? [';'] rest)

/-- What a piece of character data is made of. The two are told apart since a referenced blank is
kept where a literal one is normalised. -/
inductive Piece where
  /-- A character that stands for itself. -/
  | literal (c : Char)
  /-- A character that a reference stands for. -/
  | referenced (c : Char)

/-- The pieces of character data. The count bounds the number of pieces; a reference counts for one,
as it stands for one character. -/
def piecesWithin? : Nat → List Char → Option (List Piece)
  | _, [] => some []
  | 0, _ :: _ => none
  | n + 1, '&' :: cs => do
    let (c, rest) ← takeReference? cs
    return .referenced c :: (← piecesWithin? n rest)
  | n + 1, c :: cs => (piecesWithin? n cs).map (.literal c :: ·)

/-- The pieces of character data, if all of its references stand for something. -/
def pieces? (cs : List Char) : Option (List Piece) :=
  piecesWithin? cs.length cs

/-! ### Line ends -/

/-- Adds a character to text that is held in reverse. A carriage return before it becomes a line
feed, which swallows a line feed after it; one at the very end becomes a line feed too. -/
def pushText (out : List Char) (c : Char) (atEnd : Bool) : List Char :=
  let c' := if atEnd && c = '\r' then '\n' else c
  match out with
  | '\r' :: rest => if c = '\n' then '\n' :: rest else c' :: '\n' :: rest
  | _ => c' :: out

/-- The text of pieces after `out`, which is held in reverse. A character after a reference is kept
as it is, and so is the reference itself. -/
def textFrom (out : List Char) (afterReference : Bool) : List Piece → List Char
  | [] => out.reverse
  | .referenced c :: rest => textFrom (c :: out) true rest
  | .literal c :: rest =>
    if afterReference then textFrom (c :: out) false rest
    else textFrom (pushText out c rest.isEmpty) false rest

/-- **The text of character data** between tags. -/
def text? (cs : List Char) : Option String :=
  (pieces? cs).map fun ps => String.ofList (textFrom [] false ps)

/-- The text of character data that has no references. -/
def literalText (cs : List Char) : String :=
  String.ofList (textFrom [] false (cs.map .literal))

/-- The characters of an attribute value: blanks are spaces, and a carriage return before a line
feed is dropped. -/
def valueChars : List Piece → List Char
  | [] => []
  | .referenced c :: rest => c :: valueChars rest
  | .literal '\r' :: .literal '\n' :: rest => ' ' :: valueChars rest
  | .literal c :: rest => (if isSpace c then ' ' else c) :: valueChars rest

/-- **The text of an attribute value.** -/
def value? (cs : List Char) : Option String :=
  (pieces? cs).map fun ps => String.ofList (valueChars ps)

end QueryGateway.Xml
