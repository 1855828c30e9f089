import QueryGateway.Proofs.Calendar.Reading
import QueryGateway.Proofs.Number.Decimal
import QueryGateway.Proofs.Value.Integers

/-!
# Values and their texts

Coercing the text of a value to the target of the value. `text_round_trip` says for which values of
which types this gives the value again: for all whose text says everything (`HasFullText`), with any
blanks around, but for times in a leap second that does not end its minute. Such a leap second has
the text of the second after it, and that is what is read (`strayLeap_is_not_read_back`).

A value that is read back from its text is the same value; decimals may come back with other digits
and another scale, of the same worth (`SqlValue.IsSame`).
-/

namespace QueryGateway

open Calendar Number Text

/-! ### Values whose texts say everything -/

/-- **The values whose texts say everything,** each with the typed value that it is. The scale of a
decimal is within thirty-two bits; a moment has an offset of whole minutes and a year of four
digits on its clock. -/
inductive HasFullText : RawValue → SqlValue → Prop where
  | bool (b : Bool) : HasFullText (.bool b) (.bool b)
  | int (n : Int64) : HasFullText (.int n) (.bigInt n)
  | decimal {d : Decimal} (hscale : -2 ^ 31 ≤ d.scale ∧ d.scale < 2 ^ 31) :
    HasFullText (.decimal d) (.decimal d)
  | dateTime (t : DateTime) : HasFullText (.dateTime t) (.dateTime t)
  | offsetDateTime {t : OffsetDateTime} (hoffset : t.offset.seconds % 60 = 0)
    (hyear : 0 ≤ t.clock.date.year ∧ t.clock.date.year ≤ 9999) :
    HasFullText (.offsetDateTime t) (.offsetDateTime t)
  | time (t : TimeOfDay) : HasFullText (.time t) (.time t)
  | uuid (u : Uuid) : HasFullText (.uuid u) (.uuid u)

/-- **The same typed value.** Decimals are the same if they are worth the same. -/
def SqlValue.IsSame : SqlValue → SqlValue → Prop
  | .decimal d, .decimal e => d.value = e.value
  | v, w => v = w

theorem exists_isSame_iff {v w : SqlValue} : (∃ u, some w = some u ∧ u.IsSame v) ↔ w.IsSame v := by
  simp only [Option.some.injEq, exists_eq_left']

/-- **No stray leap second:** if the time in a value is in a leap second, that ends its minute. -/
def RawValue.LeapsAtMinuteEnd : RawValue → Prop
  | .dateTime t => t.time.LeapsAtMinuteEnd
  | .offsetDateTime t => t.clock.time.LeapsAtMinuteEnd
  | .time t => t.LeapsAtMinuteEnd
  | _ => True

namespace HasFullText

variable {raw : RawValue} {v : SqlValue}

/-- There are no blanks in such a text. -/
theorem isBlank_of_mem_display (h : HasFullText raw v) :
    ∀ c ∈ raw.display.toList, isBlank c = false := by
  cases h with
  | bool b => cases b <;> simp [RawValue.display, isBlank]
  | int n => exact isBlank_of_mem_integerText n.toInt
  | decimal => exact Decimal.isBlank_of_mem_text _
  | dateTime t =>
    rw [RawValue.display, String.toList_ofList]
    exact t.isBlank_of_mem_text
  | offsetDateTime =>
    rw [RawValue.display, String.toList_ofList]
    exact OffsetDateTime.isBlank_of_mem_text _
  | time t =>
    rw [RawValue.display, String.toList_ofList]
    exact t.isBlank_of_mem_text
  | uuid u => exact fun c hc => u.isBlank_of_mem_text hc

/-- Blanks around the text are trimmed away. -/
theorem trimChars_padded (h : HasFullText raw v) {before after : List Char}
    (hbefore : ∀ c ∈ before, isBlank c = true) (hafter : ∀ c ∈ after, isBlank c = true) :
    trimChars (String.ofList (before ++ raw.display.toList ++ after)).toList =
      raw.display.toList := by
  rw [String.toList_ofList]
  exact Text.trimChars_padded (isTrimmed_of_forall h.isBlank_of_mem_display) hbefore hafter

/-- **What the text of a value is read as** is the value, unless it is in a stray leap second. -/
theorem read?_text (h : HasFullText raw v) {s : String}
    (hs : trimChars s.toList = raw.display.toList) :
    (∃ w, v.target.rule.read? (.text s) = some w ∧ w.IsSame v) ↔ raw.LeapsAtMinuteEnd := by
  -- one case for each type whose text says everything; only those with a time of day can differ
  -- when read back
  cases h with
  | bool b =>
    have hread : Rule.truth? (Text.trim s) = some b := by
      rw [Text.trim, hs, String.ofList_toList]
      cases b <;> decide
    rw [SqlValue.target, Target.read?_bool_text, hread]
    exact iff_of_true ⟨.bool b, rfl, rfl⟩ trivial
  -- the text and the number denote the same integer, and the target of all 64 bits holds it
  | int n =>
    have hdenotes : (RawValue.text s).Denotes true n.toInt := by
      apply RawValue.Denotes.text
      rw [hs]
      exact isIntegerText_integerText (.inl rfl)
    have hread : Target.bigInt.rule.read? (.text s) = some (.bigInt (.ofInt n.toInt)) :=
      (IntegerTarget.read?_target_eq_some_iff .bigInt RawValue.noConfusion _).2
        ⟨n.toInt, ⟨Int64.le_toInt n, Int64.toInt_lt n⟩, hdenotes, rfl⟩
    rw [Int64.ofInt_toInt] at hread
    exact iff_of_true ⟨.bigInt n, hread, rfl⟩ trivial
  -- the number comes back with its value, though the scale may be another
  | decimal hscale =>
    obtain ⟨e, hread, hvalue⟩ := Decimal.exists_ofText?_text hscale
    rw [SqlValue.target, Target.read?_decimal_text, hs, RawValue.display, hread]
    exact iff_of_true ⟨.decimal e, rfl, hvalue⟩ trivial
  -- here the reader gives the moment as shown, which is the moment itself iff no stray leap second
  | dateTime t =>
    rw [RawValue.display, String.toList_ofList] at hs
    rw [SqlValue.target, Target.read?_dateTime_text, readDateTime?_text hs, Option.map_some,
      exists_isSame_iff, RawValue.LeapsAtMinuteEnd, ← DateTime.shown_eq_self_iff]
    exact ⟨SqlValue.dateTime.inj, congrArg SqlValue.dateTime⟩
  -- the offset is written as well, and the internet format is tried first
  | @offsetDateTime t hoffset hyear =>
    rw [RawValue.display, String.toList_ofList] at hs
    obtain ⟨u, hread, hself⟩ := exists_readInternet?_text hoffset hyear hs
    rw [SqlValue.target, Target.read?_offsetDateTime_text, (readDateTime?_of_internet hread).2,
      Option.map_some, exists_isSame_iff, RawValue.LeapsAtMinuteEnd, ← hself]
    exact ⟨SqlValue.offsetDateTime.inj, congrArg SqlValue.offsetDateTime⟩
  | time t =>
    rw [RawValue.display, String.toList_ofList] at hs
    rw [SqlValue.target, Target.read?_time_text, readTimeOfDay?_text hs, Option.map_some,
      exists_isSame_iff, RawValue.LeapsAtMinuteEnd, ← TimeOfDay.shown_eq_self_iff]
    exact ⟨SqlValue.time.inj, congrArg SqlValue.time⟩
  | uuid u =>
    rw [SqlValue.target, Target.read?_uuid_text, hs, RawValue.display, Uuid.ofText?_text]
    exact iff_of_true ⟨.uuid u, rfl, rfl⟩ trivial

/-- **The text of a moment** has the universal time of the moment. -/
theorem read?_dateTime_text {t : OffsetDateTime} {s : String}
    (h : HasFullText (.offsetDateTime t) v) (hleap : t.clock.time.LeapsAtMinuteEnd)
    (hs : trimChars s.toList = (RawValue.offsetDateTime t).display.toList) :
    Target.dateTime.rule.read? (.text s) = some (.dateTime t.utc) := by
  cases h with
  | offsetDateTime hoffset hyear =>
    rw [RawValue.display, String.toList_ofList] at hs
    obtain ⟨u, hread, hsame⟩ := exists_readInternet?_text hoffset hyear hs
    rw [Target.read?_dateTime_text, (readDateTime?_of_internet hread).1, hsame.2 hleap,
      Option.map_some]

end HasFullText

/-- **Typed values come back from their texts.** A value whose text says everything is read back by
the target of the value, with any blanks around the text, iff the time in it is in no stray leap
second; then a moment has the same universal time for the target without offset, as a value and as a
text. -/
theorem text_round_trip {raw : RawValue} {v : SqlValue} (h : HasFullText raw v)
    (before after : List Char) (hbefore : ∀ c ∈ before, isBlank c = true)
    (hafter : ∀ c ∈ after, isBlank c = true) :
    ((∃ w, v.target.rule.strict
          (.text (String.ofList (before ++ raw.display.toList ++ after))) = .ok w ∧ w.IsSame v) ↔
        raw.LeapsAtMinuteEnd) ∧
      ∀ t, raw = .offsetDateTime t → raw.LeapsAtMinuteEnd →
        Target.dateTime.rule.strict
            (.text (String.ofList (before ++ raw.display.toList ++ after))) =
          Target.dateTime.rule.strict raw := by
  -- the padding is trimmed, and what is left is the text of the value
  have hs := h.trimChars_padded hbefore hafter
  constructor
  · rw [← h.read?_text hs]
    refine exists_congr fun w => and_congr_left fun _ => ?_
    exact Rule.strict_eq_ok_iff _ RawValue.noConfusion w
  · rintro t rfl hleap
    have htext := h.read?_dateTime_text hleap hs
    have hvalue : Target.dateTime.rule.read? (.offsetDateTime t) = some (.dateTime t.utc) := rfl
    rw [Rule.strict_eq _ RawValue.noConfusion, Rule.strict_eq _ RawValue.noConfusion, htext, hvalue]

/-- Half a second into a leap second, one hour ahead of universal time. -/
def leapAbroad : OffsetDateTime where
  clock := ⟨⟨2017, 1, 1, by decide, by decide, by decide⟩, ⟨3599, 1500000000, by decide, by decide⟩⟩
  offset := ⟨3600, by decide⟩
  utc := ⟨⟨2016, 12, 31, by decide, by decide, by decide⟩,
    ⟨86399, 1500000000, by decide, by decide⟩⟩
  shift_clock := by decide

theorem text_round_trip_leapAbroad :
    HasFullText (.offsetDateTime leapAbroad) (.offsetDateTime leapAbroad) ∧
      (∃ w, Target.offsetDateTime.rule.strict (.text " 2017-01-01T00:59:60.500+01:00\n") = .ok w ∧
        w.IsSame (.offsetDateTime leapAbroad)) ∧
      Target.dateTime.rule.strict (.text " 2017-01-01T00:59:60.500+01:00\n") =
        Target.dateTime.rule.strict (.offsetDateTime leapAbroad) := by
  have hfull : HasFullText (.offsetDateTime leapAbroad) (.offsetDateTime leapAbroad) :=
    .offsetDateTime (by decide) (by decide)
  have hleap : (RawValue.offsetDateTime leapAbroad).LeapsAtMinuteEnd := .inr rfl
  -- the parts of the text are put together by evaluation
  have htext : String.ofList ([' '] ++ (RawValue.offsetDateTime leapAbroad).display.toList ++
      ['\n']) = " 2017-01-01T00:59:60.500+01:00\n" := by
    rw [RawValue.display, String.toList_ofList]
    rfl
  obtain ⟨hback, hutc⟩ := text_round_trip hfull [' '] ['\n']
    (List.forall_mem_singleton.2 rfl) (List.forall_mem_singleton.2 rfl)
  rw [htext] at hback hutc
  exact ⟨hfull, hback.2 hleap, hutc leapAbroad rfl hleap⟩

/-- Half a second into a second that follows the first second of the day and has no number of its
own. -/
def strayLeap : TimeOfDay where
  secondOfDay := 0
  nanosecond := 1500000000
  secondOfDay_lt := TimeOfDay.midnight.secondOfDay_lt
  nanosecond_lt := by decide

/-- **A stray leap second is not read back:** its text is that of the next second. -/
theorem strayLeap_is_not_read_back :
    HasFullText (.time strayLeap) (.time strayLeap) ∧
      (RawValue.time strayLeap).display = "00:00:01.500" ∧
      Target.time.rule.strict (.text "00:00:01.500") =
        .ok (.time ⟨1, 500000000, by decide, by decide⟩) ∧
      ¬∃ w, Target.time.rule.strict (.text "00:00:01.500") = .ok w ∧
        w.IsSame (.time strayLeap) := by
  have hread : Target.time.rule.strict (.text "00:00:01.500") =
      -- the text in the statement is the one that the time displays
      .ok (.time ⟨1, 500000000, by decide, by decide⟩) := by
    have htrim : trimChars "00:00:01.500".toList = strayLeap.text := by
      rw [show "00:00:01.500" = String.ofList strayLeap.text from rfl, String.toList_ofList]
      exact trimChars_eq_self (isTrimmed_of_forall strayLeap.isBlank_of_mem_text)
    rw [Rule.strict_eq_ok_iff _ RawValue.noConfusion, Target.read?_time_text,
      readTimeOfDay?_text htrim]
    rfl
  refine ⟨.time strayLeap, rfl, hread, ?_⟩
  rintro ⟨w, hw, hsame⟩
  obtain rfl := Except.ok.inj (hread.symm.trans hw)
  cases hsame

end QueryGateway
