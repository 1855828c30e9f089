import QueryGateway.Calendar.Time
import QueryGateway.Text.Digits

/-!
# Writing dates and times

Dates are written year, month, day; times hour, minute, second; a `T` stands between the two. A year
has at least four digits, and a sign if it has more or is negative. A fraction is left out if it is
zero and has three, six or nine digits otherwise, the fewest that keep it. A leap second is written
as the second after the one it follows.
-/

namespace QueryGateway.Calendar

open Text

/-- The text of a year. -/
def yearText (year : Int) : List Char :=
  if year < 0 then '-' :: paddedDigits 4 year.natAbs
  else if 9999 < year then '+' :: paddedDigits 4 year.natAbs
  else paddedDigits 4 year.natAbs

/-- The text of a date. -/
def Date.text (d : Date) : List Char :=
  yearText d.year ++ '-' :: paddedDigits 2 d.month ++ '-' :: paddedDigits 2 d.day

/-- The text of the nanoseconds of a second: nothing if there are none, and else three, six or nine
digits behind a point, the fewest that say it exactly. -/
def fractionText (nanosecond : Nat) : List Char :=
  if nanosecond = 0 then []
  else if nanosecond % 1000000 = 0 then '.' :: paddedDigits 3 (nanosecond / 1000000)
  else if nanosecond % 1000 = 0 then '.' :: paddedDigits 6 (nanosecond / 1000)
  else '.' :: paddedDigits 9 nanosecond

/-- The text of a time of day. -/
def TimeOfDay.text (t : TimeOfDay) : List Char :=
  paddedDigits 2 t.hour ++ ':' :: paddedDigits 2 t.minute ++
    ':' :: paddedDigits 2 (t.second + t.nanosecond / nanosPerSecond) ++
    fractionText (t.nanosecond % nanosPerSecond)

/-- The text of a date-time. -/
def DateTime.text (t : DateTime) : List Char :=
  t.date.text ++ 'T' :: t.time.text

/-- The text of an offset, rounded to the minute. -/
def Offset.text (o : Offset) : List Char :=
  let minutes := (o.seconds.natAbs + 30) / 60
  (if o.seconds < 0 then '-' else '+') :: paddedDigits 2 (minutes / 60) ++
    ':' :: paddedDigits 2 (minutes % 60)

/-- The text of a date-time with the offset of its clock. -/
def OffsetDateTime.text (t : OffsetDateTime) : List Char :=
  t.clock.text ++ t.offset.text

end QueryGateway.Calendar
