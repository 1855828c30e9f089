import QueryGateway.Calendar.Date

/-!
# Times of day and date-times

A time of day counts the seconds since midnight and the nanoseconds within the second. A second
before a leap second may hold up to two thousand million nanoseconds: the second half of them is the
leap second.

A `DateTime` is a day and a time of day with no place on earth. An `OffsetDateTime` adds the offset
of the local clock from universal time, and carries the universal date-time with the proof that the
two agree.
-/

namespace QueryGateway.Calendar

/-- The number of seconds of a day. -/
def secondsPerDay : Nat := 86400

/-- The number of nanoseconds of a second. -/
def nanosPerSecond : Nat := 1000000000

/-! ### Times of day -/

/-- **A time of day,** to the nanosecond. A leap second is told by its nanoseconds: they go on
counting past the end of the full second that it follows. -/
structure TimeOfDay where
  /-- The full seconds since midnight. -/
  secondOfDay : Nat
  /-- The nanoseconds since the last full second. -/
  nanosecond : Nat
  /-- The second belongs to the day. -/
  secondOfDay_lt : secondOfDay < secondsPerDay
  /-- A second lasts at most twice as long, with its leap second. -/
  nanosecond_lt : nanosecond < 2 * nanosPerSecond
deriving DecidableEq

namespace TimeOfDay

/-- The hour. -/
def hour (t : TimeOfDay) : Nat := t.secondOfDay / 3600

/-- The minute of the hour. -/
def minute (t : TimeOfDay) : Nat := t.secondOfDay / 60 % 60

/-- The second of the minute. -/
def second (t : TimeOfDay) : Nat := t.secondOfDay % 60

/-- Midnight. -/
def midnight : TimeOfDay :=
  ⟨0, 0, by decide, by decide⟩

/-- The time with the given numbers, if there is one. Only the last second of a minute is followed
by a leap second. -/
def of? (hour minute second nanosecond : Nat) : Option TimeOfDay :=
  if h : hour < 24 ∧ minute < 60 ∧ second < 60 ∧ nanosecond < 2 * nanosPerSecond then
    if nanosecond < nanosPerSecond ∨ second = 59 then
      some ⟨hour * 3600 + minute * 60 + second, nanosecond,
        by simp only [secondsPerDay]; omega, h.2.2.2⟩
    else none
  else none

/-- The same nanoseconds at another second, counted round the clock. -/
def atSecond (t : TimeOfDay) (second : Int) : TimeOfDay :=
  ⟨(second % secondsPerDay).toNat, t.nanosecond, by simp only [secondsPerDay]; omega,
    t.nanosecond_lt⟩

theorem atSecond_secondOfDay (t : TimeOfDay) : t.atSecond t.secondOfDay = t := by
  obtain ⟨s, n, hs, hn⟩ := t
  simp only [atSecond, mk.injEq, and_true]
  simp only [secondsPerDay] at hs ⊢
  omega

/-- The nanoseconds since midnight, those of a leap second included. -/
def nanosSinceMidnight (t : TimeOfDay) : Nat :=
  t.secondOfDay * nanosPerSecond + t.nanosecond

end TimeOfDay

/-! ### Date-times -/

/-- **A day and a time of day,** on no clock in particular. Which clock is meant is up to the
target: the one without offset takes universal time. -/
structure DateTime where
  /-- The day. -/
  date : Date
  /-- The time of the day. -/
  time : TimeOfDay
deriving DecidableEq

namespace DateTime

/-- The date-time a number of seconds later, where the number is less than a day in either
direction. -/
def shift? (t : DateTime) (seconds : Int) : Option DateTime :=
  let total := t.time.secondOfDay + seconds
  let time := t.time.atSecond total
  if total < 0 then t.date.previous?.map fun d => ⟨d, time⟩
  else if total < secondsPerDay then some ⟨t.date, time⟩
  else t.date.next?.map fun d => ⟨d, time⟩

theorem shift?_zero (t : DateTime) : t.shift? 0 = some t := by
  -- the time of day itself lies within the day, so the day stays
  have h := t.time.secondOfDay_lt
  have hlow : ¬ ((t.time.secondOfDay : Int) < 0) := by omega
  have hhigh : (t.time.secondOfDay : Int) < secondsPerDay := by omega
  simp only [shift?, Int.add_zero, if_neg hlow, if_pos hhigh, TimeOfDay.atSecond_secondOfDay]

/-- The nanoseconds since the first moment of year one, those of a leap second included. -/
def nanos (t : DateTime) : Int :=
  t.date.dayNumber * (secondsPerDay * nanosPerSecond : Nat) + t.time.nanosSinceMidnight

end DateTime

/-! ### Offsets from universal time -/

/-- **An offset** of a local clock from universal time: less than a day in either direction. -/
structure Offset where
  /-- The seconds by which the local clock is ahead. -/
  seconds : Int
  /-- The local clock is less than a day ahead or behind. -/
  seconds_mem : -secondsPerDay < seconds ∧ seconds < secondsPerDay
deriving DecidableEq

namespace Offset

/-- The offset of universal time itself. -/
def zero : Offset :=
  ⟨0, by decide⟩

/-- The offset of the given seconds, if it is less than a day. -/
def of? (seconds : Int) : Option Offset :=
  if h : -secondsPerDay < seconds ∧ seconds < secondsPerDay then some ⟨seconds, h⟩ else none

end Offset

/-- **A date-time with the offset of its clock.** The moment in universal time comes along with the
local reading of it, together with the fact that they agree: near the ends of the calendar there are
readings whose moment has no date, and these are no date-times with offset. -/
structure OffsetDateTime where
  /-- The date-time on the local clock. -/
  clock : DateTime
  /-- The offset of the local clock. -/
  offset : Offset
  /-- The same moment in universal time. -/
  utc : DateTime
  /-- The universal time is the local time less the offset. -/
  shift_clock : clock.shift? (-offset.seconds) = some utc
deriving DecidableEq

namespace OffsetDateTime

/-- The moment a local clock shows, unless its universal time lies outside the calendar. -/
def of? (clock : DateTime) (offset : Offset) : Option OffsetDateTime :=
  match h : clock.shift? (-offset.seconds) with
  | some utc => some ⟨clock, offset, utc, h⟩
  | none => none

/-- A date-time taken as universal time. -/
def ofUtc (t : DateTime) : OffsetDateTime :=
  ⟨t, .zero, t, t.shift?_zero⟩

end OffsetDateTime

end QueryGateway.Calendar
