import QueryGateway.Sql.Statement

/-!
# The scanner

The references in a text are numbered in one pass over its characters, by positions. The segments of
a text are lists that are cut off one after the other; the scanner finds where each of them ends by
looking at characters before and behind a position and by taking those between two positions. The
values of the parameters stand in a table, and each is taken out of it when its parameter gets a
number.

Here nothing goes without saying. A position may lie outside of the text, the end of a range before
its start or outside of the text, an index outside of the table; each such access is a `Fault` and
ends the scan. The loops for closing quotes and tags end because they move on towards the end of the
text. The loop of the whole scan is left in single rounds: that these get to the end is what has to
be shown of them.
-/

namespace QueryGateway.Sql

/-! ### Accesses -/

/-- **An access to what is not there.** In the program each of these would end the whole request, so
the scan is shown never to come to one. -/
inductive Fault where
  /-- No character has the position. -/
  | position (i : Nat)
  /-- No characters reach from one position to the other. -/
  | range (start stop : Nat)
  /-- A text without characters has no last one. -/
  | noLast
  /-- A mark without characters cannot be looked for. -/
  | emptyMark
  /-- The table of values has no such entry. -/
  | entry (i : Nat)
deriving DecidableEq

/-- The character at a position, which has to be within the text. -/
def charAt (cs : List Char) (i : Nat) : Except Fault Char :=
  match cs[i]? with
  | some c => .ok c
  | none => .error (.position i)

/-- The characters from one position to before another. The positions may be equal, but not out of
order or beyond the end. -/
def between (cs : List Char) (start stop : Nat) : Except Fault (List Char) :=
  if start ≤ stop ∧ stop ≤ cs.length then .ok ((cs.take stop).drop start)
  else .error (.range start stop)

/-- The position of the last character. -/
def lastPosition (cs : List Char) : Except Fault Nat :=
  if cs.length = 0 then .error .noLast else .ok (cs.length - 1)

/-- Where a mark stands for the first time. -/
def firstMark? (mark : List Char) : List Char → Option Nat
  | [] => none
  | c :: cs => if mark.isPrefixOf (c :: cs) then some 0 else (firstMark? mark cs).map (· + 1)

/-- Where a mark with characters stands for the first time. -/
def findMark (mark cs : List Char) : Except Fault (Option Nat) :=
  if mark.length = 0 then .error .emptyMark else .ok (firstMark? mark cs)

/-- An entry of the table of values. -/
def entryAt (values : List (Option BindValue)) (i : Nat) : Except Fault (Option BindValue) :=
  match values[i]? with
  | some value => .ok value
  | none => .error (.entry i)

/-! ### Spans -/

/-- Whether a name ends right before a position. -/
def followsNameAt (cs : List Char) (i : Nat) : Except Fault Bool :=
  if 0 < i then do return isNameChar (← charAt cs (i - 1)) else return false

/-- Whether a backslash escapes in a literal that opens at a position: a lone letter E stands before
it. -/
def opensEscapesAt (cs : List Char) (i : Nat) : Except Fault Bool :=
  if 0 < i then do
    let c ← charAt cs (i - 1)
    if c = 'E' || c = 'e' then return !(← followsNameAt cs (i - 1)) else return false
  else return false

/-- The closing quote from a position on, or the last character if there is none. -/
def closingQuote (cs : List Char) (quote : Char) (escapes : Bool) (j : Nat) : Except Fault Nat :=
  if j < cs.length then do
    let c ← charAt cs j
    if escapes && c = '\\' then closingQuote cs quote escapes (j + 2)
    else if c = quote then return j
    else closingQuote cs quote escapes (j + 1)
  else lastPosition cs
termination_by cs.length - j

/-- The last character of the quoted span that opens at a position. -/
def quotedEnd (cs : List Char) (start : Nat) : Except Fault Nat := do
  let quote ← charAt cs start
  let escapes ← if quote = '\x27' then opensEscapesAt cs start else pure false
  closingQuote cs quote escapes (start + 1)

/-- Whether the character may stand in the tag of a dollar quote. -/
def isTagChar (c : Char) : Bool :=
  c.isAlphanum || c = '_'

/-- Where the tag that starts at a position ends. -/
def tagEnd (cs : List Char) (j : Nat) : Except Fault Nat :=
  if j < cs.length then do
    let c ← charAt cs j
    if isTagChar c then tagEnd cs (j + 1) else return j
  else return j
termination_by cs.length - j

/-- Where the dollar-quoted span that opens at a position ends, if one opens there. -/
def dollarQuoteEnd (cs : List Char) (start : Nat) : Except Fault (Option Nat) := do
  if ← followsNameAt cs start then return none
  else
    let j ← tagEnd cs (start + 1)
    if cs[j]? = some '$' && !cs[start + 1]?.any Char.isDigit then
      let mark ← between cs start (j + 1)
      let found ← findMark mark (← between cs (j + 1) cs.length)
      return some ((found.map (j + 1 + · + mark.length)).getD cs.length)
    else return none

/-- **What begins at a position,** and where it ends. Ends are the positions behind the last
character. -/
inductive Span where
  /-- Characters that stay as they are. -/
  | copied (stop : Nat)
  /-- A marker and a name. -/
  | named (stop : Nat)
deriving DecidableEq

/-- **The span that begins at a position.** The conditions are asked in the order of the program,
and each access that it makes is one that may fail here. -/
def spanAt (cs : List Char) (i : Nat) : Except Fault Span := do
  let c ← charAt cs i
  if c = '\x27' || c = '"' then
    let last ← quotedEnd cs i
    return .copied (last + 1)
  else if c = '$' then
    let stop ← dollarQuoteEnd cs i
    return .copied (stop.getD (i + 1))
  else if c = '-' && cs[i + 1]? = some '-' then
    let rest ← between cs i cs.length
    return .copied (((rest.findIdx? (· = '\n')).map (i + ·)).getD cs.length)
  else if c = '/' && cs[i + 1]? = some '*' then
    let found ← findMark ['*', '/'] (← between cs (i + 2) cs.length)
    return .copied ((found.map (i + 2 + · + 2)).getD cs.length)
  else if c = marker && cs[i + 1]? = some marker then return .copied (i + 2)
  else if c = marker && cs[i + 1]?.any isNameStart then
    if ← followsNameAt cs i then return .copied (i + 1)
    else
      let rest ← between cs (i + 1) cs.length
      return .named (((rest.findIdx? (!isNameChar ·)).map (i + 1 + ·)).getD cs.length)
  else return .copied (i + 1)

/-! ### The scan -/

/-- **How far a scan has come,** with the tables that it carries along. Nothing else is remembered
from one round to the next. -/
structure Scan where
  /-- The position of the next character. -/
  position : Nat
  /-- The statement so far. -/
  out : List Char
  /-- The values that have not been taken. -/
  values : List (Option BindValue)
  /-- The parameters with numbers, and their numbers. -/
  numbers : List (Nat × Nat)
  /-- The values that have been taken, by their numbers. -/
  params : List BindValue
deriving DecidableEq

namespace Scan

/-- The start of a scan. -/
def start (slots : List (Option BindValue)) : Scan :=
  ⟨0, [], slots, [], []⟩

/-- The characters up to a position are copied. -/
def copy (cs : List Char) (s : Scan) (stop : Nat) : Except Fault Scan := do
  let piece ← between cs s.position stop
  return { s with position := stop, out := s.out ++ piece }

/-- Whether a parameter has a number, or a value with which it can get one. -/
def canNumber (s : Scan) (i : Nat) : Except Fault Bool := do
  let value ← entryAt s.values i
  return value.isSome || (s.numbers.lookup i).isSome

/-- The number of a parameter. One without a number takes the next, and its value is taken out of
the table. -/
def number (s : Scan) (i : Nat) : Except Fault (Nat × Scan) :=
  match s.numbers.lookup i with
  | some n => .ok (n, s)
  | none => do
    let value ← entryAt s.values i
    -- only a value that is there counts
    let n := if value.isSome then s.params.length + 1 else 0
    return (n, { s with
      values := s.values.set i none
      numbers := (i, n) :: s.numbers
      params := s.params ++ value.toList })

/-- A reference up to a position is numbered, or copied if it refers to nothing that travels. -/
def refer (d : CommandDescriptor) (cs : List Char) (s : Scan) (stop : Nat) :
    Except Fault Scan := do
  let name ← between cs (s.position + 1) stop
  match d.position? (parameterKey (String.ofList name)) with
  | none => s.copy cs stop
  | some i =>
    if ← s.canNumber i then
      let (n, t) ← s.number i
      return { t with position := stop, out := t.out ++ placeholder n }
    else s.copy cs stop

/-- **One round of the scan** takes the span at its position: it is copied as it is, or numbered if
it refers to a parameter. -/
def round (d : CommandDescriptor) (s : Scan) : Except Fault Scan := do
  match ← spanAt d.text.toList s.position with
  | .copied stop => s.copy d.text.toList stop
  | .named stop => s.refer d d.text.toList stop

/-- The statement when the scan is over. -/
def statement (s : Scan) : Statement :=
  ⟨String.ofList s.out, s.params⟩

end Scan

end QueryGateway.Sql
