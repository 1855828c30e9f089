import Mathlib.Tactic.Ring
import QueryGateway.Proofs.Calendar.Moments

/-!
# Counting days

The number of a day is the count of the days before it: the day after has the next number and the
day before the previous one (`Date.dayNumber_next?`, `Date.dayNumber_previous?`). Within a month
that is plain; at the ends of months and years it says that the months add up to their year and the
leap days to the years before.

So the nanoseconds of a date-time are those of its clock, and moving a date-time by some seconds
adds them, over midnight as well (`DateTime.nanos_shift?`). The local clock and the universal time
of a moment therefore differ by the offset and by nothing else (`OffsetDateTime.nanos_utc`).
-/

namespace QueryGateway.Calendar

namespace Date

/-! ### Months and years -/

theorem eq_of_of? {year : Int} {month day : Nat} {d : Date} (h : of? year month day = some d) :
    d.year = year ∧ d.month = month ∧ d.day = day := by
  unfold of? at h
  split at h
  · split at h
    · split at h
      · obtain rfl := Option.some.inj h
        exact ⟨rfl, rfl, rfl⟩
      · cases h
    · cases h
  · cases h

theorem daysBeforeMonth_succ (year : Int) {month : Nat} (h : 1 ≤ month) :
    daysBeforeMonth year (month + 1) = daysBeforeMonth year month + daysInMonth year month := by
  obtain ⟨m, rfl⟩ := Nat.exists_eq_add_of_le' h
  simp only [daysBeforeMonth, Nat.add_sub_cancel]
  rw [List.range_succ, List.map_append, List.foldl_append]
  rfl

/-- The months of a year, up to the last day of December. -/
theorem daysBeforeMonth_december (year : Int) :
    daysBeforeMonth year 12 + 31 = if isLeapYear year then 366 else 365 := by
  cases h : isLeapYear year <;>
    simp [daysBeforeMonth, daysInMonth, h, List.range, List.range.loop]

theorem daysBeforeYear_succ (year : Int) :
    daysBeforeYear (year + 1) = daysBeforeYear year + if isLeapYear year then 366 else 365 := by
  simp only [daysBeforeYear, isLeapYear, Bool.and_eq_true, Bool.or_eq_true, decide_eq_true_eq,
    bne_iff_ne]
  split <;> omega

/-! ### The next day and the previous one -/

/-- **The next day** has the next number. -/
theorem dayNumber_next? {d e : Date} (h : d.next? = some e) : e.dayNumber = d.dayNumber + 1 := by
  have hmonth := d.month_mem
  have hday := d.day_mem
  unfold next? at h
  unfold dayNumber
  split at h
  · -- a day within a month
    obtain ⟨hy, hm, hd⟩ := eq_of_of? h
    rw [hy, hm, hd]
    omega
  split at h
  · -- the last day of a month
    obtain ⟨hy, hm, hd⟩ := eq_of_of? h
    rw [hy, hm, hd, daysBeforeMonth_succ _ hmonth.1]
    omega
  · -- the last day of a year
    obtain ⟨hy, hm, hd⟩ := eq_of_of? h
    obtain hlast : d.month = 12 := by omega
    have hdecember : daysInMonth d.year d.month = 31 := by
      rw [hlast]
      rfl
    have hyear := daysBeforeMonth_december d.year
    have hjanuary : daysBeforeMonth (d.year + 1) 1 = 0 := rfl
    -- a year is as long as its months, whether it is a leap year or not
    rw [hy, hm, hd, daysBeforeYear_succ, hjanuary, hlast]
    cases hleap : isLeapYear d.year <;>
    · simp only [hleap, if_true, Bool.false_eq_true, if_false] at hyear ⊢
      omega

/-- The day before is the one that the day comes after. -/
theorem next?_of_previous? {d e : Date} (h : d.previous? = some e) : e.next? = some d := by
  have hmonth := d.month_mem
  have hday := d.day_mem
  have hself := of?_self d
  unfold previous? at h
  unfold next?
  -- back within a month, and forward within it again
  split at h
  · obtain ⟨hy, hm, hd⟩ := eq_of_of? h
    rw [hy, hm, hd, if_pos (by omega), Nat.sub_add_cancel (by omega), hself]
  -- back to the last day of the month before, which the first of this month follows
  split at h
  · obtain ⟨hy, hm, hd⟩ := eq_of_of? h
    obtain hfirst : d.day = 1 := by omega
    rw [hy, hm, hd, if_neg (by omega), if_pos (by omega), Nat.sub_add_cancel (by omega), ← hfirst,
      hself]
  · -- back to the last of December, which is no day before another one of its month
    obtain ⟨hy, hm, hd⟩ := eq_of_of? h
    obtain hfirst : d.day = 1 := by omega
    obtain hjanuary : d.month = 1 := by omega
    have hdecember : ¬ 31 < daysInMonth (d.year - 1) 12 := by simp [daysInMonth]
    rw [hy, hm, hd, if_neg hdecember, if_neg (by decide), Int.sub_add_cancel, ← hself, hfirst,
      hjanuary]

/-- **The previous day** has the previous number. -/
theorem dayNumber_previous? {d e : Date} (h : d.previous? = some e) :
    e.dayNumber = d.dayNumber - 1 := by
  have hnext := dayNumber_next? (next?_of_previous? h)
  omega

/-! ### Bounds -/

theorem daysBeforeMonth_le (year : Int) (month : Nat) :
    daysBeforeMonth year month ≤ 31 * (month - 1) := by
  unfold daysBeforeMonth
  generalize month - 1 = k
  induction k with
  | zero => simp
  | succ k ih =>
    have hmonth := daysInMonth_le year (k + 1)
    rw [List.range_succ, List.map_append, List.foldl_append]
    simp only [List.map_cons, List.map_nil, List.foldl_cons, List.foldl_nil]
    omega

/-- The numbers of days lie between those of the ends of the calendar. -/
theorem dayNumber_mem (d : Date) : -95747000 < d.dayNumber ∧ d.dayNumber < 95747000 := by
  have hyear := d.year_mem
  have hmonth := d.month_mem
  have hday := d.day_mem
  have hbefore := daysBeforeMonth_le d.year d.month
  have hlength := daysInMonth_le d.year d.month
  simp only [firstYear, lastYear] at hyear
  unfold dayNumber daysBeforeYear
  dsimp only
  omega

end Date

/-! ### Date-times -/

/-- **Moving a date-time** by less than a day moves its nanoseconds as far. -/
theorem DateTime.nanos_shift? {t u : DateTime} {seconds : Int} (h : t.shift? seconds = some u)
    (hday : -secondsPerDay < seconds ∧ seconds < secondsPerDay) :
    u.nanos = t.nanos + seconds * nanosPerSecond := by
  -- the clock shows less than a day, so the seconds leave this day by one day at most
  have hclock := t.time.secondOfDay_lt
  simp only [secondsPerDay] at hday hclock
  unfold shift? at h
  dsimp only at h
  split at h
  · -- before midnight: the clock of the day before
    next hnegative =>
    obtain ⟨d, hd, rfl⟩ := Option.map_eq_some_iff.1 h
    have hnumber := Date.dayNumber_previous? hd
    simp only [nanos, TimeOfDay.nanosSinceMidnight, TimeOfDay.atSecond, secondsPerDay,
      nanosPerSecond] at *
    omega
  -- on this day
  split at h
  · obtain rfl := Option.some.inj h
    simp only [nanos, TimeOfDay.nanosSinceMidnight, TimeOfDay.atSecond, secondsPerDay,
      nanosPerSecond] at *
    omega
  · -- after midnight: the clock of the next day
    obtain ⟨d, hd, rfl⟩ := Option.map_eq_some_iff.1 h
    have hnumber := Date.dayNumber_next? hd
    simp only [nanos, TimeOfDay.nanosSinceMidnight, TimeOfDay.atSecond, secondsPerDay,
      nanosPerSecond] at *
    omega

/-- **Universal time** is the local clock less the offset. -/
theorem OffsetDateTime.nanos_utc (t : OffsetDateTime) :
    t.utc.nanos = t.clock.nanos - t.offset.seconds * nanosPerSecond := by
  have hoffset := t.offset.seconds_mem
  rw [DateTime.nanos_shift? t.shift_clock (by omega)]
  ring

end QueryGateway.Calendar
