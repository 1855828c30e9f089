import QueryGateway.Calendar.Time
import QueryGateway.Text.Blank
import QueryGateway.Text.Digits

/-!
# Reading dates and times

The written forms of dates and times as data: a `Pattern` is a list of items, each of which reads
the front of the text and records what it read. Two kinds of number items exist. A *loose* number
may follow blanks and may be shorter than its full width; an *exact* number fills its width.

`Internet` forms are the exact ones: four, two and two digits of a date, the letter T, the time with
an optional fraction, and an offset or the letter Z. The other patterns are loose. A text matches a
pattern if the items use it up.

Main definitions: `readDateTime?`, `readOffsetDateTime?` and `readTimeOfDay?` try their patterns in
order and take the first that gives a date or time that exists.
-/

namespace QueryGateway.Calendar

open Text

/-! ### What a text says -/

/-- **The numbers of a written date or time.** What a pattern does not mention keeps its first
value. -/
structure Fields where
  /-- The year. -/
  year : Int := 0
  /-- The month. -/
  month : Nat := 1
  /-- The day of the month. -/
  day : Nat := 1
  /-- The hour. -/
  hour : Nat := 0
  /-- The minute. -/
  minute : Nat := 0
  /-- The second; sixty is the leap second. -/
  second : Nat := 0
  /-- The nanoseconds of the fraction. -/
  nanosecond : Nat := 0
  /-- The seconds by which the clock is ahead of universal time. -/
  offset : Int := 0

namespace Fields

/-- The day that the numbers name. -/
def date? (f : Fields) : Option Date :=
  Date.of? f.year f.month f.day

/-- The time of day that the numbers name. A leap second counts on from the second before it. -/
def time? (f : Fields) : Option TimeOfDay :=
  if f.second = 60 then TimeOfDay.of? f.hour f.minute 59 (nanosPerSecond + f.nanosecond)
  else TimeOfDay.of? f.hour f.minute f.second f.nanosecond

/-- The date-time that the numbers name. -/
def dateTime? (f : Fields) : Option DateTime := do
  return ⟨← f.date?, ← f.time?⟩

/-- The date-time with offset that the numbers name. -/
def offsetDateTime? (f : Fields) : Option OffsetDateTime := do
  OffsetDateTime.of? (← f.dateTime?) (← Offset.of? f.offset)

end Fields

/-! ### Items -/

/-- The numbers that a pattern can mention. Each has a width of its own, and what is read for one is
recorded under it. -/
inductive Part where
  | year
  | month
  | day
  | hour
  | minute
  | second
deriving DecidableEq

/-- The number of digits of a part written in full. -/
def Part.width : Part → Nat
  | .year => 4
  | _ => 2

/-- Records the number read for a part; a part that a pattern mentions twice keeps the last
number. -/
def Fields.set (f : Fields) (part : Part) (n : Nat) : Fields :=
  match part with
  | .year => { f with year := n }
  | .month => { f with month := n }
  | .day => { f with day := n }
  | .hour => { f with hour := n }
  | .minute => { f with minute := n }
  | .second => { f with second := n }

/-- The items of a pattern. -/
inductive Item where
  /-- One of the given characters. -/
  | mark (accepted : List Char)
  /-- Any number of blanks. -/
  | blanks
  /-- A number that fills its width. -/
  | exact (part : Part)
  /-- A number of one digit up to its width, after any blanks. -/
  | loose (part : Part)
  /-- A year of up to four digits, or of any number of digits after a sign, after any blanks. -/
  | looseYear
  /-- Nothing, or a point and digits. -/
  | fraction
  /-- The letter Z, or a sign, two digits of hours, a colon and two digits of minutes. -/
  | internetOffset
  /-- A sign, two digits of hours, any colons and blanks and two digits of minutes, after any
  blanks. -/
  | looseOffset

/-- A written form. -/
abbrev Pattern := List Item

/-- The digits at the front, at most as many as given, and the rest. -/
def takeDigits (most : Nat) (cs : List Char) : List Char × List Char :=
  let ds := (cs.take most).takeWhile Char.isDigit
  (ds, cs.drop ds.length)

/-- The number at the front with at least one digit and at most the given number of them. -/
def takeNumber? (most : Nat) (cs : List Char) : Option (Nat × List Char) :=
  match takeDigits most cs with
  | ([], _) => none
  | (ds, rest) => some (valueOfDigits ds, rest)

/-- The number at the front with exactly the given number of digits. -/
def takeExact? (width : Nat) (cs : List Char) : Option (Nat × List Char) :=
  let (ds, rest) := takeDigits width cs
  if ds.length = width then some (valueOfDigits ds, rest) else none

/-- The year at the front. After a sign it may have any number of digits, and four at most without
one; a minus makes it negative. -/
def takeYear? (cs : List Char) : Option (Int × List Char) :=
  match cs with
  | '-' :: rest => (takeNumber? rest.length rest).map fun (n, rest) => (-(n : Int), rest)
  | '+' :: rest => (takeNumber? rest.length rest).map fun (n, rest) => ((n : Int), rest)
  | _ => (takeNumber? Part.year.width cs).map fun (n, rest) => ((n : Int), rest)

/-- The nanoseconds of the digits of a fraction. Digits beyond the ninth are dropped. -/
def nanosOfDigits (ds : List Char) : Nat :=
  let kept := ds.take 9
  valueOfDigits kept * Nat.pow 10 (9 - kept.length)

/-- The fraction at the front, zero if no point stands there. A point without a digit behind it is
refused, and digits beyond the ninth are read over. -/
def takeFraction? (cs : List Char) : Option (Nat × List Char) :=
  match cs with
  | '.' :: rest =>
    match rest.takeWhile Char.isDigit with
    | [] => none
    | ds => some (nanosOfDigits ds, rest.dropWhile Char.isDigit)
  | _ => some (0, cs)

/-- The sign of an offset: a plus, a hyphen or a true minus. -/
def takeSign? : List Char → Option (Int × List Char)
  | '+' :: rest => some (1, rest)
  | '-' :: rest => some (-1, rest)
  | '\u2212' :: rest => some (-1, rest)
  | _ => none

/-- The offset at the front, with what stands between its hours and minutes skipped by
`separator`. -/
def takeOffset? (separator : List Char → Option (List Char)) (cs : List Char) :
    Option (Int × List Char) := do
  let (sign, cs) ← takeSign? cs
  let (hours, cs) ← takeExact? 2 cs
  let cs ← separator cs
  let (minutes, cs) ← takeExact? 2 cs
  if minutes < 60 then some (sign * (hours * 3600 + minutes * 60 : Nat), cs) else none

/-- A single colon. -/
def oneColon? : List Char → Option (List Char)
  | ':' :: rest => some rest
  | _ => none

/-- Any number of colons and blanks. -/
def anyColons? (cs : List Char) : Option (List Char) :=
  some (cs.dropWhile fun c => c = ':' || isBlank c)

/-- **What an item reads:** the numbers with what it recorded, and the rest of the text. -/
def Item.read? (item : Item) (f : Fields) (cs : List Char) : Option (Fields × List Char) :=
  match item with
  | .mark accepted =>
    match cs with
    | c :: rest => if c ∈ accepted then some (f, rest) else none
    | [] => none
  | .blanks => some (f, skipBlanks cs)
  | .exact part => (takeExact? part.width cs).map fun (n, rest) => (f.set part n, rest)
  | .loose part =>
    (takeNumber? part.width (skipBlanks cs)).map fun (n, rest) => (f.set part n, rest)
  | .looseYear => (takeYear? (skipBlanks cs)).map fun (y, rest) => ({ f with year := y }, rest)
  | .fraction => (takeFraction? cs).map fun (n, rest) => ({ f with nanosecond := n }, rest)
  | .internetOffset =>
    match cs with
    | 'Z' :: rest => some ({ f with offset := 0 }, rest)
    | 'z' :: rest => some ({ f with offset := 0 }, rest)
    | _ => (takeOffset? oneColon? cs).map fun (n, rest) => ({ f with offset := n }, rest)
  | .looseOffset =>
    (takeOffset? anyColons? (skipBlanks cs)).map fun (n, rest) => ({ f with offset := n }, rest)

namespace Pattern

/-- What the items of a pattern read one after the other. Each goes on where the one before has
stopped, and the first that finds nothing to read fails the whole. -/
def readFrom? : Pattern → Fields → List Char → Option (Fields × List Char)
  | [], f, cs => some (f, cs)
  | item :: items, f, cs =>
    match item.read? f cs with
    | some (f, rest) => readFrom? items f rest
    | none => none

/-- **Matching a pattern:** the numbers of a text that the items use up. -/
def read? (pattern : Pattern) (cs : List Char) : Option Fields :=
  match pattern.readFrom? {} cs with
  | some (f, []) => some f
  | _ => none

/-! ### The patterns -/

/-- A loose date. -/
def looseDate : Pattern :=
  [.looseYear, .mark ['-'], .loose .month, .mark ['-'], .loose .day]

/-- A loose hour and minute. -/
def looseMinutes : Pattern :=
  [.loose .hour, .mark [':'], .loose .minute]

/-- A loose time with seconds and an optional fraction. -/
def looseSeconds : Pattern :=
  looseMinutes ++ [.mark [':'], .loose .second, .fraction]

/-- The internet form, whose offset is part of it. -/
def internet : Pattern :=
  [.exact .year, .mark ['-'], .exact .month, .mark ['-'], .exact .day, .mark ['t', 'T', ' '],
    .exact .hour, .mark [':'], .exact .minute, .mark [':'], .exact .second, .fraction,
    .internetOffset]

/-- The forms of a date-time without an offset, in the order in which they are tried. -/
def dateTimes : List Pattern :=
  [looseDate ++ .mark ['T'] :: looseSeconds,
    looseDate ++ .blanks :: looseSeconds,
    looseDate ++ .mark ['T'] :: looseMinutes,
    looseDate ++ .blanks :: looseMinutes]

/-- A loose date-time followed by an offset. -/
def looseOffsetDateTime : Pattern :=
  looseDate ++ .blanks :: looseSeconds ++ [.blanks, .looseOffset]

/-- The forms of a time of day, in the order in which they are tried. -/
def times : List Pattern :=
  [looseSeconds, looseMinutes]

end Pattern

/-! ### Reading texts -/

/-- The date-time in the internet form. -/
def readInternet? (cs : List Char) : Option OffsetDateTime :=
  (Pattern.internet.read? cs).bind Fields.offsetDateTime?

/-- The date-time in a form without an offset. -/
def readPlainDateTime? (cs : List Char) : Option DateTime :=
  Pattern.dateTimes.findSome? fun p => (p.read? cs).bind Fields.dateTime?

/-- The first moment of the day in the form of a date. -/
def readDay? (cs : List Char) : Option DateTime :=
  ((Pattern.looseDate.read? cs).bind Fields.date?).map fun d => ⟨d, .midnight⟩

/-- **Reading a date-time:** what carries an offset is taken to universal time. The internet format
is tried first, then a date with a time, then a day alone at its midnight; blanks around the text do
not count. -/
def readDateTime? (s : String) : Option DateTime :=
  let cs := trimChars s.toList
  match readInternet? cs with
  | some t => some t.utc
  | none => (readPlainDateTime? cs).or (readDay? cs)

/-- **Reading a date-time with offset:** what carries none is taken as universal time. -/
def readOffsetDateTime? (s : String) : Option OffsetDateTime :=
  let cs := trimChars s.toList
  (readInternet? cs).or
    (((Pattern.looseOffsetDateTime.read? cs).bind Fields.offsetDateTime?).or
      ((readDateTime? s).map .ofUtc))

/-- **Reading a time of day.** -/
def readTimeOfDay? (s : String) : Option TimeOfDay :=
  let cs := trimChars s.toList
  Pattern.times.findSome? fun p => (p.read? cs).bind Fields.time?

end QueryGateway.Calendar
