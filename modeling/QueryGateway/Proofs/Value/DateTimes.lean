import QueryGateway.Proofs.Calendar.Reading
import QueryGateway.Proofs.Value.Modes

/-!
# The two date-time targets

One target takes date-times without offset and reads what has one at universal time; the other takes
them with offset and reads what has none as universal time. `dateTime_targets` compares them text by
text. They read the same moments, but for the texts whose offset stands apart from the time: these
the first target refuses, although it takes offsets in the internet form.

Such texts exist for every moment that can be written: `setsOffsetApart_text` shows one with blanks
where the internet form has the letter T and nothing.
-/

namespace QueryGateway

open Calendar Text

namespace Target

theorem strict_dateTime_text_eq_ok_iff {s : String} {v : SqlValue} :
    Target.dateTime.rule.strict (.text s) = .ok v ↔
      ∃ t, readDateTime? s = some t ∧ v = .dateTime t := by
  rw [Rule.strict_eq_ok_iff _ RawValue.noConfusion, read?_dateTime_text, Option.map_eq_some_iff]
  simp only [eq_comm]

theorem strict_offsetDateTime_text_eq_ok_iff {s : String} {v : SqlValue} :
    Target.offsetDateTime.rule.strict (.text s) = .ok v ↔
      ∃ t, readOffsetDateTime? s = some t ∧ v = .offsetDateTime t := by
  rw [Rule.strict_eq_ok_iff _ RawValue.noConfusion, read?_offsetDateTime_text,
    Option.map_eq_some_iff]
  simp only [eq_comm]

end Target

/-- **The two date-time targets read the same texts, but for those whose offset stands apart.** A
text is read without offset iff it is read with one that does not stand apart in it, and then as the
universal time of that moment. A text with an offset that stands apart is read with it, and refused
without. -/
theorem dateTime_targets (s : String) :
    (∀ v, Target.dateTime.rule.strict (.text s) = .ok v ↔
        ∃ t, Target.offsetDateTime.rule.strict (.text s) = .ok (.offsetDateTime t) ∧
          v = .dateTime t.utc ∧ ¬SetsOffsetApart s t) ∧
      ∀ t, SetsOffsetApart s t →
        Target.offsetDateTime.rule.strict (.text s) = .ok (.offsetDateTime t) ∧
          Target.dateTime.rule.strict (.text s) = .error (.conversion "text" s "datetime") := by
  -- the target with offset wraps what its reader gives and refuses all else
  have hoffset : ∀ t, Target.offsetDateTime.rule.strict (.text s) = .ok (.offsetDateTime t) ↔
      readOffsetDateTime? s = some t := by
    intro t
    rw [Target.strict_offsetDateTime_text_eq_ok_iff]
    constructor
    · rintro ⟨u, hu, heq⟩
      obtain rfl := SqlValue.offsetDateTime.inj heq
      exact hu
    · exact fun h => ⟨t, h, rfl⟩
  constructor
  · intro v
    simp only [Target.strict_dateTime_text_eq_ok_iff, hoffset]
    constructor
    · rintro ⟨t, ht, rfl⟩
      -- what is read without offset does not set one apart, so both readers agree on it
      have happart : ∀ u, ¬SetsOffsetApart s u := by
        intro u hu
        rw [hu.readDateTime?_eq] at ht
        cases ht
      rw [← map_utc_readOffsetDateTime? happart, Option.map_eq_some_iff] at ht
      obtain ⟨u, hu, rfl⟩ := ht
      exact ⟨u, hu, rfl, happart u⟩
    · rintro ⟨u, hu, rfl, hnot⟩
      -- a text has one reading with offset, so the one that is not set apart here is the only one
      have happart : ∀ t, ¬SetsOffsetApart s t := by
        intro t ht
        have heq : t = u := Option.some.inj (ht.readOffsetDateTime?_eq.symm.trans hu)
        exact hnot (heq ▸ ht)
      refine ⟨u.utc, ?_, rfl⟩
      rw [← map_utc_readOffsetDateTime? happart, hu, Option.map_some]
  · intro t ht
    refine ⟨(hoffset t).2 ht.readOffsetDateTime?_eq, ?_⟩
    -- the reader without offset tries no format in which the offset stands apart
    have hnone : Target.dateTime.rule.read? (.text s) = none := by
      rw [Target.read?_dateTime_text, ht.readDateTime?_eq, Option.map_none]
    exact Rule.strict_of_read?_eq_none _ RawValue.noConfusion hnone

/-- Ten in the morning, five and a half hours ahead of universal time. -/
def morningAbroad : OffsetDateTime where
  clock := ⟨⟨2024, 5, 17, by decide, by decide, by decide⟩,
    ⟨36000, 0, by decide, TimeOfDay.midnight.nanosecond_lt⟩⟩
  offset := ⟨19800, by decide⟩
  utc := ⟨⟨2024, 5, 17, by decide, by decide, by decide⟩,
    ⟨16200, 0, by decide, TimeOfDay.midnight.nanosecond_lt⟩⟩
  shift_clock := by decide

theorem dateTime_targets_morningAbroad :
    Target.offsetDateTime.rule.strict (.text "2024-05-17 10:00:00 +0530") =
        .ok (.offsetDateTime morningAbroad) ∧
      Target.dateTime.rule.strict (.text "2024-05-17 10:00:00 +0530") =
        .error (.conversion "text" "2024-05-17 10:00:00 +0530" "datetime") := by
  have hapart : SetsOffsetApart "2024-05-17 10:00:00 +0530" morningAbroad :=
    ⟨by decide +kernel, by decide +kernel⟩
  exact (dateTime_targets "2024-05-17 10:00:00 +0530").2 morningAbroad hapart

end QueryGateway
