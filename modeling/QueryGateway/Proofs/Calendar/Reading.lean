import QueryGateway.Proofs.Calendar.Items

/-!
# Reading printed dates and times

Whole texts, read by the readers. A printed date-time is read by the first of the plain forms and by
no internet form, for want of an offset; a printed moment is read by the internet form, if its year
has four digits and its offset whole minutes. What is read is the time that the text shows, so it is
the time that was printed unless that is in a stray leap second (`TimeOfDay.shown_eq_self_iff`).

Main results: `readTimeOfDay?_text`, `readDateTime?_text` and `exists_readInternet?_text`. A moment
printed with blanks between its parts is in the form that only the reader with offsets has
(`setsOffsetApart_text`).
-/

namespace QueryGateway.Calendar

open Text

/-! ### Whole forms -/

section Years

variable {year : Int} {f : Fields} {rest : List Char}

theorem Item.read?_exactYear (h : 0 ≤ year ∧ year ≤ 9999) :
    (Item.exact .year).read? f (yearText year ++ rest) = some ({ f with year := year }, rest) := by
  have hback : (year.natAbs : Int) = year := by omega
  have htext : yearText year = paddedDigits 4 year.natAbs := by
    rw [yearText, if_neg (by omega), if_neg (by omega)]
  have hwidth : (paddedDigits 4 year.natAbs).length = Part.year.width :=
    length_paddedDigits (by decide) (by omega)
  rw [htext, Item.read?_exact (isDigits_paddedDigits 4 _) hwidth, valueOfDigits_paddedDigits,
    Fields.set, hback]

/-- A year with a sign does not fill the width of a year. -/
theorem Item.read?_exactYear_eq_none (h : ¬(0 ≤ year ∧ year ≤ 9999)) :
    (Item.exact .year).read? f (yearText year ++ rest) = none := by
  unfold yearText
  by_cases hneg : year < 0
  · rw [if_pos hneg]
    rfl
  · rw [if_neg hneg, if_pos (by omega)]
    rfl

theorem Item.read?_looseYear (hrest : NoDigitFirst rest) :
    Item.looseYear.read? f (yearText year ++ rest) = some ({ f with year := year }, rest) := by
  rw [Item.read?, skipBlanks_yearText, takeYear?_yearText year hrest]
  rfl

end Years

/-- The numbers of a printed date-time. -/
def DateTime.fields (t : DateTime) : Fields :=
  (Fields.setDate {} t.date).setTime t.time

/-- The date-time that the text of a date-time shows: the time itself, but for a leap second that
ends no minute, which shows as the second after it. -/
def DateTime.shown (t : DateTime) : DateTime :=
  ⟨t.date, t.time.shown⟩

theorem DateTime.shown_eq_self_iff {t : DateTime} : t.shown = t ↔ t.time.LeapsAtMinuteEnd := by
  rw [← TimeOfDay.shown_eq_self_iff]
  constructor
  · exact fun h => congrArg DateTime.time h
  · exact fun h => congrArg (DateTime.mk t.date) h

theorem DateTime.dateTime?_fields (t : DateTime) : t.fields.dateTime? = some t.shown := by
  have hdate : t.fields.date? = some t.date := t.date.of?_self
  have htime : t.fields.time? = some t.time.shown := Fields.time?_setTime _ t.time
  rw [Fields.dateTime?, hdate, htime]
  rfl

theorem DateTime.offsetDateTime?_fields (t : DateTime) (o : Offset) :
    Fields.offsetDateTime? { t.fields with offset := o.seconds } =
      OffsetDateTime.of? t.shown o := by
  have hclock : Fields.dateTime? { t.fields with offset := o.seconds } = some t.shown :=
    t.dateTime?_fields
  rw [Fields.offsetDateTime?, hclock]
  change (Offset.of? o.seconds).bind _ = _
  rw [o.of?_self]
  rfl

namespace Pattern

/-- The exact forms of a date, a time and an offset. -/
theorem internet_eq :
    internet = dateItems (.exact .year) .exact ++
      Item.mark ['t', 'T', ' '] :: (timeItems .exact ++ [Item.internetOffset]) :=
  rfl

theorem looseDate_eq : looseDate = dateItems .looseYear .loose :=
  rfl

theorem looseSeconds_eq : looseSeconds = timeItems .loose :=
  rfl

theorem looseOffsetDateTime_eq :
    looseOffsetDateTime =
      looseDate ++ Item.blanks :: (looseSeconds ++ [Item.blanks, Item.looseOffset]) :=
  rfl

end Pattern

section Forms

variable (t : DateTime) {rest : List Char}

/-- **The internet form of a printed date-time,** whose offset is what follows. -/
theorem readFrom?_internet {mark : Char} (hmark : mark ∈ ['t', 'T', ' '])
    (hyear : 0 ≤ t.date.year ∧ t.date.year ≤ 9999) (hrest : NoFractionFirst rest) :
    Pattern.readFrom? .internet {} (t.date.text ++ mark :: (t.time.text ++ rest)) =
      Pattern.readFrom? [.internetOffset] t.fields rest := by
  rw [Pattern.internet_eq, Pattern.readFrom?_append,
    readFrom?_dateText (fun _ => .inl rfl) (fun _ _ _ => Item.read?_exactYear hyear),
    Option.bind_some, Pattern.readFrom?_cons, Item.read?_mark hmark, Option.bind_some,
    Pattern.readFrom?_append, readFrom?_timeText (fun _ => .inl rfl) _ _ hrest, Option.bind_some]
  rfl

/-- **The loose form of a printed date-time,** with anything behind it. -/
theorem readFrom?_loose {separator : Item} {mark : Char}
    (hseparator : ∀ f, separator.read? f (mark :: (t.time.text ++ rest)) =
      some (f, t.time.text ++ rest))
    (hrest : NoFractionFirst rest) (q : Pattern) :
    Pattern.readFrom? (Pattern.looseDate ++ separator :: (Pattern.looseSeconds ++ q)) {}
        (t.date.text ++ mark :: (t.time.text ++ rest)) =
      Pattern.readFrom? q t.fields rest := by
  -- the date, what separates it from the time, and the time, each by its items
  rw [Pattern.looseDate_eq, Pattern.looseSeconds_eq, Pattern.readFrom?_append,
    readFrom?_dateText (fun _ => .inr rfl) (fun _ _ => Item.read?_looseYear), Option.bind_some,
    Pattern.readFrom?_cons, hseparator, Option.bind_some, Pattern.readFrom?_append,
    readFrom?_timeText (fun _ => .inr rfl) _ _ hrest, Option.bind_some]
  rfl

/-- The internet form does not read a date-time without its offset behind it. -/
theorem readInternet?_eq_none {mark : Char} (hmark : mark ∈ ['t', 'T', ' '])
    (hrest : NoFractionFirst rest) (hoffset : ∀ f, Item.internetOffset.read? f rest = none) :
    readInternet? (t.date.text ++ mark :: (t.time.text ++ rest)) = none := by
  have hread : Pattern.readFrom? .internet {} (t.date.text ++ mark :: (t.time.text ++ rest)) =
      none := by
    -- with a year of four digits the offset is what is missing
    by_cases hyear : 0 ≤ t.date.year ∧ t.date.year ≤ 9999
    · rw [readFrom?_internet t hmark hyear hrest, Pattern.readFrom?_cons, hoffset]
      rfl
    · -- with any other year the form fails at once
      rw [Pattern.internet, Pattern.readFrom?_cons, Date.text, List.append_assoc, List.append_assoc,
        Item.read?_exactYear_eq_none hyear]
      rfl
  rw [readInternet?, Pattern.read?, hread]
  rfl

end Forms

theorem noFractionFirst_nil : NoFractionFirst [] where
  noDigit := fun _ hc => by cases hc
  noPoint := fun h => by cases h

theorem skipBlanks_space (cs : List Char) : skipBlanks (' ' :: cs) = skipBlanks cs :=
  List.dropWhile_cons_of_pos rfl

/-- Blanks before a printed time are skipped to its digits. -/
theorem skipBlanks_timeText (t : TimeOfDay) (rest : List Char) :
    skipBlanks (t.text ++ rest) = t.text ++ rest := by
  simp only [TimeOfDay.text, List.append_assoc]
  exact skipBlanks_digits (isDigits_paddedDigits 2 _)

/-! ### No blanks -/

section Blanks

theorem isBlank_colon : isBlank ':' = false :=
  rfl

theorem isBlank_hyphen : isBlank '-' = false :=
  rfl

theorem isBlank_of_mem_paddedDigits (width n : Nat) :
    ∀ c ∈ paddedDigits width n, isBlank c = false :=
  isBlank_of_mem_digits (isDigits_paddedDigits width n).isDigit

/-- The fraction of a second has no blank, in whatever number of digits it is shown. -/
theorem isBlank_of_mem_fractionText (n : Nat) : ∀ c ∈ fractionText n, isBlank c = false := by
  have hpoint : ∀ width k, ∀ c ∈ '.' :: paddedDigits width k, isBlank c = false := by
    intro width k
    rw [List.forall_mem_cons]
    exact ⟨rfl, isBlank_of_mem_paddedDigits width k⟩
  unfold fractionText
  split
  · exact fun c hc => absurd hc List.not_mem_nil
  split
  · exact hpoint _ _
  split
  · exact hpoint _ _
  · exact hpoint _ _

theorem TimeOfDay.isBlank_of_mem_text (t : TimeOfDay) : ∀ c ∈ t.text, isBlank c = false := by
  have hdigits := isBlank_of_mem_paddedDigits 2
  simp only [TimeOfDay.text, List.forall_mem_append, List.forall_mem_cons]
  exact ⟨⟨⟨hdigits _, isBlank_colon, hdigits _⟩, isBlank_colon, hdigits _⟩,
    isBlank_of_mem_fractionText _⟩

theorem isBlank_of_mem_yearText (year : Int) : ∀ c ∈ yearText year, isBlank c = false := by
  have hdigits := isBlank_of_mem_paddedDigits 4 year.natAbs
  unfold yearText
  split
  · exact List.forall_mem_cons.2 ⟨rfl, hdigits⟩
  split
  · exact List.forall_mem_cons.2 ⟨rfl, hdigits⟩
  · exact hdigits

theorem DateTime.isBlank_of_mem_text (t : DateTime) : ∀ c ∈ t.text, isBlank c = false := by
  have hdigits := isBlank_of_mem_paddedDigits 2
  simp only [DateTime.text, Date.text, List.forall_mem_append, List.forall_mem_cons]
  exact ⟨⟨⟨isBlank_of_mem_yearText _, isBlank_hyphen, hdigits _⟩, isBlank_hyphen, hdigits _⟩, rfl,
    t.time.isBlank_of_mem_text⟩

theorem OffsetDateTime.isBlank_of_mem_text (t : OffsetDateTime) :
    ∀ c ∈ t.text, isBlank c = false := by
  have hdigits := isBlank_of_mem_paddedDigits 2
  simp only [OffsetDateTime.text, Offset.text, List.forall_mem_append, List.forall_mem_cons]
  refine ⟨t.clock.isBlank_of_mem_text, ⟨?_, hdigits _⟩, isBlank_colon, hdigits _⟩
  split <;> rfl

end Blanks

/-! ### The readers -/

section Readers

variable {s : String}

/-- **A printed time of day** is read as the time that it shows. -/
theorem readTimeOfDay?_text {t : TimeOfDay} (h : trimChars s.toList = t.text) :
    readTimeOfDay? s = some t.shown := by
  have hread : Pattern.read? Pattern.looseSeconds t.text = some (Fields.setTime {} t) := by
    have hfrom := readFrom?_timeText (fun _ => .inr rfl) t {} noFractionFirst_nil
    rw [List.append_nil] at hfrom
    exact Pattern.read?_eq_some_iff.2 hfrom
  simp only [readTimeOfDay?, h, Pattern.times, List.findSome?_cons, hread, Option.bind_some,
    Fields.time?_setTime]

/-- **A printed date-time** is read as the date-time that it shows. -/
theorem readDateTime?_text {t : DateTime} (h : trimChars s.toList = t.text) :
    readDateTime? s = some t.shown := by
  have htext : t.text = t.date.text ++ 'T' :: (t.time.text ++ []) := by
    rw [List.append_nil]
    rfl
  -- the internet form comes first, and needs an offset
  have hinternet : readInternet? t.text = none := by
    rw [htext]
    exact readInternet?_eq_none t (by decide) noFractionFirst_nil fun _ => rfl
  -- the loose form with the letter is the first of the others
  have hread : Pattern.read? (Pattern.looseDate ++ .mark ['T'] :: Pattern.looseSeconds) t.text =
      some t.fields := by
    rw [Pattern.read?_eq_some_iff, htext]
    have hletter : ∀ f, (Item.mark ['T']).read? f ('T' :: (t.time.text ++ [])) =
        some (f, t.time.text ++ []) :=
      fun f => Item.read?_mark (List.mem_singleton_self 'T')
    have hfrom := readFrom?_loose t hletter noFractionFirst_nil []
    rw [List.append_nil] at hfrom
    exact hfrom
  rw [readDateTime?_of_not_internet (h ▸ hinternet), h, readPlainDateTime?, Pattern.dateTimes,
    List.findSome?_cons, hread, Option.bind_some, t.dateTime?_fields]
  rfl

/-- **A printed date-time with its offset** of whole minutes is read as the moment that it shows. -/
theorem readInternet?_text {t : DateTime} {o : Offset} (ho : o.seconds % 60 = 0)
    (hyear : 0 ≤ t.date.year ∧ t.date.year ≤ 9999) :
    readInternet? (t.text ++ o.text) = OffsetDateTime.of? t.shown o := by
  have htext : t.text ++ o.text = t.date.text ++ 'T' :: (t.time.text ++ (o.text ++ [])) := by
    rw [List.append_nil, DateTime.text, List.append_assoc, List.cons_append]
  have hread : Pattern.read? .internet (t.text ++ o.text) =
      some { t.fields with offset := o.seconds } := by
    rw [Pattern.read?_eq_some_iff, htext, readFrom?_internet t (by decide) hyear
      (noFractionFirst_offsetText o []), Pattern.readFrom?_cons, Item.read?_internetOffset ho]
    rfl
  rw [readInternet?, hread, Option.bind_some, t.offsetDateTime?_fields]

/-- **A printed moment** with an offset of whole minutes and a year of four digits is read as a
moment, and as itself iff its leap second, if it is in one, ends a minute. -/
theorem exists_readInternet?_text {t : OffsetDateTime} (ho : t.offset.seconds % 60 = 0)
    (hyear : 0 ≤ t.clock.date.year ∧ t.clock.date.year ≤ 9999)
    (h : trimChars s.toList = t.text) :
    ∃ u, readInternet? (trimChars s.toList) = some u ∧
      (u = t ↔ t.clock.time.LeapsAtMinuteEnd) := by
  -- the years that can be read here are far from the ends of the calendar
  have hinside : firstYear < t.clock.shown.date.year ∧ t.clock.shown.date.year < lastYear := by
    change -262143 < t.clock.date.year ∧ t.clock.date.year < 262142
    omega
  obtain ⟨u, hu⟩ := OffsetDateTime.exists_of? hinside t.offset
  refine ⟨u, ?_, ?_⟩
  · rw [h, OffsetDateTime.text, readInternet?_text ho hyear, hu]
  -- it is itself if the clock that was read is its own
  rw [← DateTime.shown_eq_self_iff]
  constructor
  · rintro rfl
    exact (OffsetDateTime.of?_eq_some_iff.1 hu).1.symm
  · intro hshown
    rw [hshown, t.of?_self] at hu
    exact (Option.some.inj hu).symm

/-- **A printed moment with blanks** before its time and its offset sets the offset apart. -/
theorem setsOffsetApart_text {t : OffsetDateTime} (ho : t.offset.seconds % 60 = 0)
    (hleap : t.clock.time.LeapsAtMinuteEnd)
    (h : trimChars s.toList =
      t.clock.date.text ++ ' ' :: (t.clock.time.text ++ ' ' :: t.offset.text)) :
    SetsOffsetApart s t := by
  have hblank : NoFractionFirst (' ' :: t.offset.text) :=
    ⟨noDigitFirst_cons rfl _, fun h => absurd (Option.some.inj h) (by decide)⟩
  have hshown : t.clock.shown = t.clock := DateTime.shown_eq_self_iff.2 hleap
  constructor
  · -- the loose form reads all of it: the date, the time and the offset, with blanks between
    have hread : Pattern.looseOffsetDateTime.read? (trimChars s.toList) =
        some { t.clock.fields with offset := t.offset.seconds } := by
      rw [Pattern.read?_eq_some_iff, h]
      have hspace : ∀ f, Item.blanks.read? f
          (' ' :: (t.clock.time.text ++ ' ' :: t.offset.text)) =
            some (f, t.clock.time.text ++ ' ' :: t.offset.text) := by
        intro f
        rw [Item.read?, skipBlanks_space, skipBlanks_timeText]
      have hfrom := readFrom?_loose t.clock hspace hblank [.blanks, .looseOffset]
      rw [Pattern.looseOffsetDateTime_eq, hfrom]
      have hkept := skipBlanks_offsetText t.offset []
      have hoffset := Item.read?_looseOffset ho t.clock.fields []
      rw [List.append_nil] at hkept hoffset
      rw [Pattern.readFrom?_cons, Item.read?, skipBlanks_space, hkept, Option.bind_some,
        Pattern.readFrom?_cons, hoffset]
      rfl
    rw [hread, Option.bind_some, t.clock.offsetDateTime?_fields, hshown, t.of?_self]
  · -- and the internet form does not, because behind the time comes a blank
    rw [h]
    exact readInternet?_eq_none t.clock (by decide) hblank fun _ => rfl

end Readers

end QueryGateway.Calendar
