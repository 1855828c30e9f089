import QueryGateway.Calendar.Time
import Mathlib.Data.Option.Basic

/-!
# Moments and their days

A moment is a date-time on a local clock and the offset of the clock, and there is one iff the
universal time lies in the calendar. That can fail at the ends of the calendar alone: every other
day has a day before it and a day after it, and an offset moves a date-time to one of the three
(`exists_shift?`). So all moments with a year of four digits exist (`exists_of?`).
-/

namespace QueryGateway.Calendar

theorem le_daysInMonth (year : Int) (month : Nat) : 1 ≤ daysInMonth year month := by
  unfold daysInMonth
  split
  · split <;> decide
  split <;> decide

theorem daysInMonth_le (year : Int) (month : Nat) : daysInMonth year month ≤ 31 := by
  unfold daysInMonth
  split
  · split <;> decide
  split <;> decide

namespace Date

/-- Numbers within their bounds name a day. -/
theorem exists_of? {year : Int} {month day : Nat} (hyear : firstYear ≤ year ∧ year ≤ lastYear)
    (hmonth : 1 ≤ month ∧ month ≤ 12) (hday : 1 ≤ day ∧ day ≤ daysInMonth year month) :
    ∃ d, of? year month day = some d := by
  rw [of?, dif_pos hyear, dif_pos hmonth, dif_pos hday]
  exact ⟨_, rfl⟩

theorem of?_self (d : Date) : of? d.year d.month d.day = some d := by
  rw [of?, dif_pos d.year_mem, dif_pos d.month_mem, dif_pos d.day_mem]

/-- Every day before the last year is followed by another. -/
theorem exists_next? {d : Date} (h : d.year < lastYear) : ∃ e, d.next? = some e := by
  have hyear := d.year_mem
  have hmonth := d.month_mem
  have hday := d.day_mem
  -- in a month, over the end of a month, and over the end of a year, which is not the last one
  unfold next?
  by_cases hinner : d.day < daysInMonth d.year d.month
  · rw [if_pos hinner]
    exact exists_of? hyear hmonth (by omega)
  rw [if_neg hinner]
  by_cases hmiddle : d.month < 12
  · rw [if_pos hmiddle]
    exact exists_of? hyear (by omega) ⟨Nat.le_refl 1, le_daysInMonth _ _⟩
  · rw [if_neg hmiddle]
    exact exists_of? (by omega) (by decide) ⟨Nat.le_refl 1, le_daysInMonth _ _⟩

/-- Every day behind the first year follows another. -/
theorem exists_previous? {d : Date} (h : firstYear < d.year) : ∃ e, d.previous? = some e := by
  have hyear := d.year_mem
  have hmonth := d.month_mem
  have hday := d.day_mem
  -- in a month, over the beginning of a month, and over that of a year, which is not the first one
  unfold previous?
  by_cases hinner : 1 < d.day
  · rw [if_pos hinner]
    exact exists_of? hyear hmonth (by omega)
  rw [if_neg hinner]
  by_cases hmiddle : 1 < d.month
  · rw [if_pos hmiddle]
    exact exists_of? hyear (by omega) ⟨le_daysInMonth _ _, Nat.le_refl _⟩
  · rw [if_neg hmiddle]
    exact exists_of? (by omega) (by decide) ⟨by decide, Nat.le_refl _⟩

end Date

/-- **A date-time away from the ends of the calendar** can be moved by less than a day. -/
theorem DateTime.exists_shift? {t : DateTime}
    (h : firstYear < t.date.year ∧ t.date.year < lastYear) (seconds : Int) :
    ∃ u, t.shift? seconds = some u := by
  obtain ⟨before, hbefore⟩ := Date.exists_previous? h.1
  obtain ⟨after, hafter⟩ := Date.exists_next? h.2
  -- to the day before, on the same day, or to the day after
  unfold shift?
  dsimp only
  split
  · rw [hbefore]
    exact ⟨_, rfl⟩
  split
  · exact ⟨_, rfl⟩
  · rw [hafter]
    exact ⟨_, rfl⟩

theorem Offset.of?_self (o : Offset) : Offset.of? o.seconds = some o := by
  rw [Offset.of?, dif_pos o.seconds_mem]

namespace OffsetDateTime

/-- **The moment of a clock and an offset** is the one that has this clock and this offset. -/
theorem of?_eq_some_iff {clock : DateTime} {offset : Offset} {t : OffsetDateTime} :
    of? clock offset = some t ↔ t.clock = clock ∧ t.offset = offset := by
  -- the moved clock is part of the moment, and is told by the clock and the offset
  obtain ⟨c, o, utc, hshift⟩ := t
  unfold of?
  split
  · next moved hmoved =>
    rw [Option.some.injEq, mk.injEq]
    constructor
    · rintro ⟨rfl, rfl, -⟩
      exact ⟨rfl, rfl⟩
    · rintro ⟨rfl, rfl⟩
      exact ⟨rfl, rfl, Option.some.inj (hmoved.symm.trans hshift)⟩
  · next hnone =>
    refine iff_of_false (fun h => by cases h) ?_
    rintro ⟨rfl, rfl⟩
    rw [hshift] at hnone
    cases hnone

theorem of?_self (t : OffsetDateTime) : of? t.clock t.offset = some t :=
  of?_eq_some_iff.2 ⟨rfl, rfl⟩

/-- A clock away from the ends of the calendar shows a moment, whatever its offset. -/
theorem exists_of? {clock : DateTime} (h : firstYear < clock.date.year ∧ clock.date.year < lastYear)
    (offset : Offset) : ∃ t, of? clock offset = some t := by
  obtain ⟨utc, hutc⟩ := DateTime.exists_shift? h (-offset.seconds)
  exact ⟨⟨clock, offset, utc, hutc⟩, of?_eq_some_iff.2 ⟨rfl, rfl⟩⟩

end OffsetDateTime

end QueryGateway.Calendar
