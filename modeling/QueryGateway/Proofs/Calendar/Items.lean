import QueryGateway.Calendar.Printer
import QueryGateway.Proofs.Calendar.Forms
import QueryGateway.Proofs.Calendar.Moments
import QueryGateway.Proofs.Text.Blank
import QueryGateway.Proofs.Text.Digits

/-!
# Items and printed parts

Printed years, dates, times and offsets, read by the items of the patterns. Each printed part is
read by its items from the front of a text, loose items and exact ones alike, so the parts compose
to whole forms.

A printed second does not tell a leap second from the second after it unless that is a sixtieth. So
what the numbers of a printed time name is the time that its text shows (`Fields.time?_setTime`),
and that is the time itself iff a leap second, where the time is in one, ends its minute
(`TimeOfDay.shown_eq_self_iff`).
-/

namespace QueryGateway.Calendar

open Text

/-! ### Numbers at the front of a text -/

/-- A text that goes on without a digit, so that a number in front of it ends where it is meant
to. -/
def NoDigitFirst (cs : List Char) : Prop :=
  ∀ c, cs.head? = some c → c.isDigit = false

theorem noDigitFirst_cons {c : Char} (h : c.isDigit = false) (cs : List Char) :
    NoDigitFirst (c :: cs) := by
  intro d hd
  obtain rfl := Option.some.inj hd
  exact h

theorem takeWhile_isDigit_eq_nil {cs : List Char} (h : NoDigitFirst cs) :
    cs.takeWhile Char.isDigit = [] := by
  cases cs with
  | nil => rfl
  | cons c rest => rw [List.takeWhile_cons_of_neg (by rw [h c rfl]; exact Bool.false_ne_true)]

theorem takeWhile_isDigit_append {ds rest : List Char} (hds : IsDigits ds)
    (hrest : NoDigitFirst rest) : (ds ++ rest).takeWhile Char.isDigit = ds := by
  rw [List.takeWhile_append_of_pos hds.isDigit, takeWhile_isDigit_eq_nil hrest, List.append_nil]

theorem dropWhile_isDigit_append {ds rest : List Char} (hds : IsDigits ds)
    (hrest : NoDigitFirst rest) : (ds ++ rest).dropWhile Char.isDigit = rest := by
  have hsplit := List.takeWhile_append_dropWhile (p := Char.isDigit) (l := ds ++ rest)
  rw [takeWhile_isDigit_append hds hrest] at hsplit
  exact List.append_cancel_left hsplit

/-- Digits are taken up to the given count, or up to where they end. -/
theorem takeDigits_append {most : Nat} {ds rest : List Char} (hds : IsDigits ds)
    (hmost : ds.length ≤ most) (hrest : ds.length = most ∨ NoDigitFirst rest) :
    takeDigits most (ds ++ rest) = (ds, rest) := by
  -- the digits are what is taken, whether the count or the rest ends them
  have hfront : ((ds ++ rest).take most).takeWhile Char.isDigit = ds := by
    rw [List.take_append, List.take_of_length_le hmost]
    rcases hrest with hfull | hnone
    · rw [hfull, Nat.sub_self, List.take_zero, List.append_nil, List.takeWhile_eq_self_iff]
      exact hds.isDigit
    · refine takeWhile_isDigit_append hds fun c hc => hnone c ?_
      -- what is left of the rest begins as the rest does, or is empty
      cases rest with
      | nil => simp at hc
      | cons d rest =>
        cases hcount : most - ds.length with
        | zero => simp [hcount] at hc
        | succ k => simpa [hcount] using hc
  simp only [takeDigits, hfront, List.drop_left]

theorem takeNumber?_append {most : Nat} {ds rest : List Char} (hds : IsDigits ds)
    (hmost : ds.length ≤ most) (hrest : ds.length = most ∨ NoDigitFirst rest) :
    takeNumber? most (ds ++ rest) = some (valueOfDigits ds, rest) := by
  unfold takeNumber?
  rw [takeDigits_append hds hmost hrest]
  split
  · next heq => exact absurd (Prod.mk.inj heq).1 hds.ne_nil
  · next heq =>
    obtain ⟨rfl, rfl⟩ := Prod.mk.inj heq
    rfl

theorem takeExact?_append {width : Nat} {ds rest : List Char} (hds : IsDigits ds)
    (hwidth : ds.length = width) :
    takeExact? width (ds ++ rest) = some (valueOfDigits ds, rest) := by
  rw [takeExact?, takeDigits_append hds hwidth.le (.inl hwidth)]
  exact if_pos hwidth

theorem skipBlanks_digits {ds rest : List Char} (hds : IsDigits ds) :
    skipBlanks (ds ++ rest) = ds ++ rest := by
  apply skipBlanks_eq_self
  intro c hc
  rw [List.head?_append_of_ne_nil _ hds.ne_nil] at hc
  exact isBlank_of_isDigit (hds.isDigit c (List.mem_of_head? hc))

/-! ### Items and what they read -/

namespace Item

variable {f : Fields} {rest : List Char}

theorem read?_mark {accepted : List Char} {c : Char} (h : c ∈ accepted) :
    (mark accepted).read? f (c :: rest) = some (f, rest) :=
  if_pos h

theorem read?_exact {part : Part} {ds : List Char} (hds : IsDigits ds)
    (hwidth : ds.length = part.width) :
    (exact part).read? f (ds ++ rest) = some (f.set part (valueOfDigits ds), rest) := by
  rw [read?, takeExact?_append hds hwidth]
  rfl

theorem read?_loose {part : Part} {ds : List Char} (hds : IsDigits ds)
    (hwidth : ds.length = part.width) :
    (loose part).read? f (ds ++ rest) = some (f.set part (valueOfDigits ds), rest) := by
  rw [read?, skipBlanks_digits hds, takeNumber?_append hds hwidth.le (.inl hwidth)]
  rfl

/-- **A number of two digits** is read by the exact and by the loose item of its part. -/
theorem read?_two {item : Item} {part : Part} (hitem : item = .exact part ∨ item = .loose part)
    (hpart : part ≠ .year) {n : Nat} (hn : n < 100) :
    item.read? f (paddedDigits 2 n ++ rest) = some (f.set part n, rest) := by
  have hwidth : (paddedDigits 2 n).length = part.width := by
    rw [length_paddedDigits (by decide) hn]
    cases part <;> first | rfl | exact absurd rfl hpart
  have hvalue := valueOfDigits_paddedDigits 2 n
  rcases hitem with rfl | rfl
  · rw [read?_exact (isDigits_paddedDigits 2 n) hwidth, hvalue]
  · rw [read?_loose (isDigits_paddedDigits 2 n) hwidth, hvalue]

end Item

/-! ### Years -/

/-- A year that begins with a digit has at most four of them. -/
theorem takeYear?_digits {ds rest : List Char} (hds : IsDigits ds) :
    takeYear? (ds ++ rest) =
      (takeNumber? Part.year.width (ds ++ rest)).map fun r => ((r.1 : Int), r.2) := by
  -- a digit is in front, so neither sign is
  have hhead : (ds ++ rest).head? = ds.head? := List.head?_append_of_ne_nil _ hds.ne_nil
  unfold takeYear?
  split
  · next heq =>
    rw [heq] at hhead
    exact absurd hhead.symm hds.head?_ne_sign.1
  · next heq =>
    rw [heq] at hhead
    exact absurd hhead.symm hds.head?_ne_sign.2
  · rfl

/-- **A printed year** is read back: a year of four digits as it stands, any other with its sign. -/
theorem takeYear?_yearText (year : Int) {rest : List Char} (hrest : NoDigitFirst rest) :
    takeYear? (yearText year ++ rest) = some (year, rest) := by
  have hds := isDigits_paddedDigits 4 year.natAbs
  have hvalue := valueOfDigits_paddedDigits 4 year.natAbs
  -- with a sign the year may have any number of digits
  have hsigned : takeNumber? (paddedDigits 4 year.natAbs ++ rest).length
      (paddedDigits 4 year.natAbs ++ rest) = some (year.natAbs, rest) := by
    rw [takeNumber?_append hds (by simp) (.inr hrest), hvalue]
  unfold yearText
  by_cases hneg : year < 0
  · have hback : -(year.natAbs : Int) = year := by omega
    rw [if_pos hneg, List.cons_append, takeYear?, hsigned, Option.map_some]
    change some (-(year.natAbs : Int), rest) = some (year, rest)
    rw [hback]
  -- what has no sign but more digits than four is printed with one
  have hback : (year.natAbs : Int) = year := by omega
  by_cases hlong : 9999 < year
  · rw [if_neg hneg, if_pos hlong, List.cons_append, takeYear?, hsigned, Option.map_some]
    change some ((year.natAbs : Int), rest) = some (year, rest)
    rw [hback]
  · -- a year of four digits is read up to the four
    have hlength : (paddedDigits 4 year.natAbs).length = Part.year.width :=
      length_paddedDigits (by decide) (by omega)
    rw [if_neg hneg, if_neg hlong, takeYear?_digits hds,
      takeNumber?_append hds hlength.le (.inl hlength), hvalue, Option.map_some, hback]

/-- A printed year begins with a digit or a sign, so no blanks are skipped before it. -/
theorem skipBlanks_yearText (year : Int) (rest : List Char) :
    skipBlanks (yearText year ++ rest) = yearText year ++ rest := by
  unfold yearText
  split
  · rfl
  split
  · rfl
  · exact skipBlanks_digits (isDigits_paddedDigits 4 _)

/-! ### Dates -/

/-- Records the numbers of a day. -/
def Fields.setDate (f : Fields) (d : Date) : Fields :=
  { f with year := d.year, month := d.month, day := d.day }

/-- Records the numbers that the text of a time shows. -/
def Fields.setTime (f : Fields) (t : TimeOfDay) : Fields :=
  { f with
    hour := t.hour, minute := t.minute
    second := t.second + t.nanosecond / nanosPerSecond
    nanosecond := t.nanosecond % nanosPerSecond }

/-- The items of a date, with an item for the year and one for each of the other numbers. -/
def Pattern.dateItems (year : Item) (number : Part → Item) : Pattern :=
  [year, .mark ['-'], number .month, .mark ['-'], number .day]

/-- **A printed date** is read by the items of a date, loose or exact, if its year is. -/
theorem readFrom?_dateText {number : Part → Item}
    (hnumber : ∀ part, number part = .exact part ∨ number part = .loose part) {year : Item}
    {d : Date}
    (hyear : ∀ f rest, NoDigitFirst rest →
      year.read? f (yearText d.year ++ rest) = some ({ f with year := d.year }, rest))
    (f : Fields) (rest : List Char) :
    Pattern.readFrom? (.dateItems year number) f (d.text ++ rest) = some (f.setDate d, rest) := by
  have hmonth : d.month < 100 := by have := d.month_mem; omega
  have hday : d.day < 100 := by have := d.day_mem; have := daysInMonth_le d.year d.month; omega
  -- each item reads what was printed for it, and a hyphen ends the year
  simp only [Pattern.dateItems, Date.text, List.append_assoc, List.cons_append,
    Pattern.readFrom?_cons, Option.bind_some, Item.read?_mark (List.mem_singleton_self '-'),
    hyear f _ (noDigitFirst_cons (c := '-') rfl _),
    Item.read?_two (hnumber .month) Part.noConfusion hmonth,
    Item.read?_two (hnumber .day) Part.noConfusion hday]
  rfl

/-! ### Fractions -/

/-- A text that goes on without a fraction and without a digit. -/
structure NoFractionFirst (cs : List Char) : Prop where
  noDigit : NoDigitFirst cs
  noPoint : cs.head? ≠ some '.'

theorem takeFraction?_point {ds rest : List Char} (hds : IsDigits ds) (hrest : NoDigitFirst rest) :
    takeFraction? ('.' :: (ds ++ rest)) = some (nanosOfDigits ds, rest) := by
  simp only [takeFraction?, takeWhile_isDigit_append hds hrest, dropWhile_isDigit_append hds hrest]
  cases ds with
  | nil => exact absurd rfl hds.ne_nil
  | cons d ds => rfl

/-- The nanoseconds of up to nine digits. -/
theorem nanosOfDigits_paddedDigits {width n : Nat} (hwidth : 0 < width ∧ width ≤ 9)
    (hn : n < 10 ^ width) : nanosOfDigits (paddedDigits width n) = n * 10 ^ (9 - width) := by
  have hlength := length_paddedDigits hwidth.1 hn
  have hkept : (paddedDigits width n).take 9 = paddedDigits width n :=
    List.take_of_length_le (hlength.trans_le hwidth.2)
  simp only [nanosOfDigits, hkept, valueOfDigits_paddedDigits, hlength]
  rfl

/-- **A printed fraction** is read back, whether none, three, six or nine digits show it. -/
theorem takeFraction?_fractionText {n : Nat} (hn : n < nanosPerSecond) {rest : List Char}
    (hrest : NoFractionFirst rest) : takeFraction? (fractionText n ++ rest) = some (n, rest) := by
  change n < 1000000000 at hn
  -- the digits that are left out are zeros, so what is shown is the whole of it
  have hshort : ∀ width, (0 < width ∧ width ≤ 9) → n % 10 ^ (9 - width) = 0 →
      n / 10 ^ (9 - width) < 10 ^ width →
      takeFraction? ('.' :: (paddedDigits width (n / 10 ^ (9 - width)) ++ rest)) =
        some (n, rest) := by
    intro width hwidth hdiv hfits
    rw [takeFraction?_point (isDigits_paddedDigits _ _) hrest.noDigit,
      nanosOfDigits_paddedDigits hwidth hfits, Nat.div_mul_cancel (Nat.dvd_of_mod_eq_zero hdiv)]
  -- the forms in the order in which they are tried
  unfold fractionText
  by_cases hzero : n = 0
  · rw [if_pos hzero, hzero, List.nil_append]
    unfold takeFraction?
    split
    · exact absurd rfl hrest.noPoint
    · rfl
  rw [if_neg hzero]
  by_cases hmillis : n % 1000000 = 0
  · rw [if_pos hmillis]
    exact hshort 3 (by decide) hmillis (by omega)
  rw [if_neg hmillis]
  by_cases hmicros : n % 1000 = 0
  · rw [if_pos hmicros]
    exact hshort 6 (by decide) hmicros (by omega)
  · have hnanos := hshort 9 (by decide) (Nat.mod_one n) (by omega)
    rw [if_neg hmicros]
    rwa [Nat.sub_self, Nat.pow_zero, Nat.div_one] at hnanos

theorem Item.read?_fraction {n : Nat} (hn : n < nanosPerSecond) (f : Fields) {rest : List Char}
    (hrest : NoFractionFirst rest) :
    Item.fraction.read? f (fractionText n ++ rest) = some ({ f with nanosecond := n }, rest) := by
  rw [Item.read?, takeFraction?_fractionText hn hrest]
  rfl

/-! ### Times -/

namespace TimeOfDay

theorem hour_lt (t : TimeOfDay) : t.hour < 24 := by
  have h := t.secondOfDay_lt
  unfold secondsPerDay at h
  unfold hour
  omega

theorem minute_lt (t : TimeOfDay) : t.minute < 60 :=
  Nat.mod_lt _ (by decide)

theorem second_lt (t : TimeOfDay) : t.second < 60 :=
  Nat.mod_lt _ (by decide)

theorem secondOfDay_eq (t : TimeOfDay) :
    t.hour * 3600 + t.minute * 60 + t.second = t.secondOfDay := by
  unfold hour minute second
  omega

theorem nanosecond_div_le (t : TimeOfDay) : t.nanosecond / nanosPerSecond ≤ 1 := by
  have h := t.nanosecond_lt
  unfold nanosPerSecond at h ⊢
  omega

end TimeOfDay

/-- The items of a time with seconds, with an item for each number. -/
def Pattern.timeItems (number : Part → Item) : Pattern :=
  [number .hour, .mark [':'], number .minute, .mark [':'], number .second, .fraction]

/-- **A printed time of day** is read by the items of a time, loose or exact. A leap second is read
as the second after. -/
theorem readFrom?_timeText {number : Part → Item}
    (hnumber : ∀ part, number part = .exact part ∨ number part = .loose part) (t : TimeOfDay)
    (f : Fields) {rest : List Char} (hrest : NoFractionFirst rest) :
    Pattern.readFrom? (.timeItems number) f (t.text ++ rest) = some (f.setTime t, rest) := by
  have hhour : t.hour < 100 := t.hour_lt.trans (by decide)
  have hminute : t.minute < 100 := t.minute_lt.trans (by decide)
  -- the sixtieth second is printed with its own number
  have hsecond : t.second + t.nanosecond / nanosPerSecond < 100 := by
    have := t.second_lt
    have := t.nanosecond_div_le
    omega
  -- each item reads what was printed for it
  have hfraction : t.nanosecond % nanosPerSecond < nanosPerSecond := Nat.mod_lt _ (by decide)
  simp only [Pattern.timeItems, TimeOfDay.text, List.append_assoc, List.cons_append,
    Pattern.readFrom?_cons, Option.bind_some, Item.read?_mark (List.mem_singleton_self ':'),
    Item.read?_two (hnumber .hour) Part.noConfusion hhour,
    Item.read?_two (hnumber .minute) Part.noConfusion hminute,
    Item.read?_two (hnumber .second) Part.noConfusion hsecond,
    Item.read?_fraction hfraction _ hrest]
  rfl

/-! ### Leap seconds -/

namespace TimeOfDay

/-- **A leap second ends a minute,** if the time is in one. Only then does its text show a sixtieth
second, and not the next full one. -/
def LeapsAtMinuteEnd (t : TimeOfDay) : Prop :=
  t.nanosecond < nanosPerSecond ∨ t.second = 59

instance (t : TimeOfDay) : Decidable t.LeapsAtMinuteEnd :=
  inferInstanceAs (Decidable (_ ∨ _))

/-- **The time that the text of a time shows.** A leap second anywhere but at the end of a minute
looks like the second after it. -/
def shown (t : TimeOfDay) : TimeOfDay :=
  if h : t.LeapsAtMinuteEnd then t
  else
    { secondOfDay := t.secondOfDay + 1
      nanosecond := t.nanosecond - nanosPerSecond
      secondOfDay_lt := by
        have hsecond : t.second ≠ 59 := fun hlast => h (.inr hlast)
        have hday := t.secondOfDay_lt
        simp only [secondsPerDay, second] at hsecond hday ⊢
        omega
      nanosecond_lt := (Nat.sub_le _ _).trans_lt t.nanosecond_lt }

theorem shown_eq_self_iff {t : TimeOfDay} : t.shown = t ↔ t.LeapsAtMinuteEnd := by
  unfold shown
  by_cases h : t.LeapsAtMinuteEnd
  · rw [dif_pos h]
    exact iff_of_true rfl h
  · rw [dif_neg h]
    refine iff_of_false (fun heq => ?_) h
    have hsecond : t.secondOfDay + 1 = t.secondOfDay := congrArg secondOfDay heq
    omega

/-- The time of day of the numbers of a time is that time, if its leap second, should it be in one,
is at the end of a minute. -/
theorem of?_eq_some {hour minute second nanosecond : Nat} (t : TimeOfDay)
    (hhour : hour = t.hour) (hminute : minute = t.minute) (hsecond : second = t.second)
    (hnano : nanosecond = t.nanosecond) (hleap : t.LeapsAtMinuteEnd) :
    of? hour minute second nanosecond = some t := by
  subst hhour hminute hsecond hnano
  have hnumbers : t.hour < 24 ∧ t.minute < 60 ∧ t.second < 60 ∧ t.nanosecond < 2 * nanosPerSecond :=
    ⟨t.hour_lt, t.minute_lt, t.second_lt, t.nanosecond_lt⟩
  have hcond : t.nanosecond < nanosPerSecond ∨ t.second = 59 := hleap
  -- the second of the day is that of its hour, minute and second
  rw [of?, dif_pos hnumbers, if_pos hcond]
  obtain ⟨secondOfDay, nanosecond, hday, hnano⟩ := t
  simp only [Option.some.injEq, mk.injEq, and_true]
  exact secondOfDay_eq ⟨secondOfDay, nanosecond, hday, hnano⟩

end TimeOfDay

/-- **The numbers of a printed time** name the time that it shows. -/
theorem Fields.time?_setTime (f : Fields) (t : TimeOfDay) :
    (f.setTime t).time? = some t.shown := by
  have hsecond := t.second_lt
  have hnano := t.nanosecond_lt
  have hparts := Nat.div_add_mod t.nanosecond nanosPerSecond
  unfold Fields.time?
  by_cases hplain : t.nanosecond < nanosPerSecond
  · -- no leap second: all numbers are the time's own
    have hdiv : t.nanosecond / nanosPerSecond = 0 := Nat.div_eq_of_lt hplain
    have hnot : ¬(f.setTime t).second = 60 := by
      change ¬t.second + t.nanosecond / nanosPerSecond = 60
      omega
    rw [if_neg hnot, TimeOfDay.shown_eq_self_iff.2 (.inl hplain)]
    refine TimeOfDay.of?_eq_some t rfl rfl ?_ (Nat.mod_eq_of_lt hplain) (.inl hplain)
    change t.second + t.nanosecond / nanosPerSecond = t.second
    rw [hdiv, Nat.add_zero]
  -- a leap second has two seconds in its nanoseconds at most
  have hdiv : t.nanosecond / nanosPerSecond = 1 := by
    unfold nanosPerSecond at hplain hnano ⊢
    omega
  rw [hdiv, Nat.mul_one] at hparts
  by_cases hlast : t.second = 59
  · -- a leap second at the end of its minute is the second with number sixty
    have hsixty : (f.setTime t).second = 60 := by
      change t.second + t.nanosecond / nanosPerSecond = 60
      omega
    rw [if_pos hsixty, TimeOfDay.shown_eq_self_iff.2 (.inr hlast)]
    exact TimeOfDay.of?_eq_some t rfl rfl hlast.symm hparts (.inr hlast)
  · -- any other leap second has the number of the next second
    have hnot : ¬(f.setTime t).second = 60 := by
      change ¬t.second + t.nanosecond / nanosPerSecond = 60
      omega
    have hleap : ¬t.LeapsAtMinuteEnd := fun h => h.elim hplain hlast
    have hshown : t.shown.secondOfDay = t.secondOfDay + 1 ∧
        t.shown.nanosecond = t.nanosecond - nanosPerSecond := by
      rw [TimeOfDay.shown, dif_neg hleap]
      exact ⟨rfl, rfl⟩
    have hrest : t.shown.nanosecond = t.nanosecond % nanosPerSecond := by omega
    have hother : t.secondOfDay % 60 ≠ 59 := hlast
    -- its numbers are those of the second after it, which is in the same minute
    rw [if_neg hnot]
    refine TimeOfDay.of?_eq_some t.shown ?_ ?_ ?_ hrest.symm (.inl ?_)
    · change t.secondOfDay / 3600 = t.shown.secondOfDay / 3600
      omega
    · change t.secondOfDay / 60 % 60 = t.shown.secondOfDay / 60 % 60
      omega
    · change t.secondOfDay % 60 + t.nanosecond / nanosPerSecond = t.shown.secondOfDay % 60
      omega
    · rw [hrest]
      exact Nat.mod_lt _ (by decide)

/-! ### Offsets -/

theorem takeExact?_two {n : Nat} (hn : n < 100) (rest : List Char) :
    takeExact? 2 (paddedDigits 2 n ++ rest) = some (n, rest) := by
  rw [takeExact?_append (isDigits_paddedDigits 2 n) (length_paddedDigits (by decide) hn),
    valueOfDigits_paddedDigits]

/-- **A printed offset of whole minutes** is read back, with any separator that takes the colon. -/
theorem takeOffset?_text {separator : List Char → Option (List Char)}
    (hseparator : ∀ n rest,
      separator (':' :: (paddedDigits 2 n ++ rest)) = some (paddedDigits 2 n ++ rest))
    {o : Offset} (ho : o.seconds % 60 = 0) (rest : List Char) :
    takeOffset? separator (o.text ++ rest) = some (o.seconds, rest) := by
  obtain ⟨hlow, hhigh⟩ := o.seconds_mem
  unfold secondsPerDay at hlow hhigh
  -- the minutes of the text, which rounds nothing away
  obtain ⟨minutes, hminutes⟩ : ∃ minutes, (o.seconds.natAbs + 30) / 60 = minutes := ⟨_, rfl⟩
  have hexact : o.seconds.natAbs = minutes / 60 * 3600 + minutes % 60 * 60 := by omega
  have hhours : minutes / 60 < 100 := by omega
  have hrest : minutes % 60 < 60 := Nat.mod_lt _ (by decide)
  unfold Offset.text takeOffset?
  simp only [hminutes, List.cons_append, List.append_assoc]
  -- the sign goes with the seconds, and the numbers of the text are those of its minutes
  by_cases hneg : o.seconds < 0
  · have hback : -1 * (o.seconds.natAbs : Int) = o.seconds := by omega
    rw [if_pos hneg]
    simp only [takeSign?, Option.bind_eq_bind, Option.bind_some, takeExact?_two hhours, hseparator,
      takeExact?_two (hrest.trans (by decide)), if_pos hrest, ← hexact, hback]
  · have hback : 1 * (o.seconds.natAbs : Int) = o.seconds := by omega
    rw [if_neg hneg]
    simp only [takeSign?, Option.bind_eq_bind, Option.bind_some, takeExact?_two hhours, hseparator,
      takeExact?_two (hrest.trans (by decide)), if_pos hrest, ← hexact, hback]

/-- A printed offset begins with its sign. -/
theorem exists_sign_offsetText (o : Offset) :
    ∃ sign tail, (sign = '+' ∨ sign = '-') ∧ o.text = sign :: tail := by
  by_cases hneg : o.seconds < 0
  · exact ⟨'-', _, .inr rfl, by rw [Offset.text, if_pos hneg]; rfl⟩
  · exact ⟨'+', _, .inl rfl, by rw [Offset.text, if_neg hneg]; rfl⟩

theorem noFractionFirst_offsetText (o : Offset) (rest : List Char) :
    NoFractionFirst (o.text ++ rest) := by
  obtain ⟨sign, tail, hsign, htext⟩ := exists_sign_offsetText o
  rw [htext, List.cons_append]
  constructor
  · apply noDigitFirst_cons
    rcases hsign with rfl | rfl <;> rfl
  · rcases hsign with rfl | rfl <;> exact fun h => absurd (Option.some.inj h) (by decide)

theorem skipBlanks_offsetText (o : Offset) (rest : List Char) :
    skipBlanks (o.text ++ rest) = o.text ++ rest := by
  obtain ⟨sign, tail, hsign, htext⟩ := exists_sign_offsetText o
  rw [htext]
  rcases hsign with rfl | rfl <;> rfl

/-- The offset of the internet form is read back. It may also be a letter, which a printed offset
never is. -/
theorem Item.read?_internetOffset {o : Offset} (ho : o.seconds % 60 = 0) (f : Fields)
    (rest : List Char) :
    Item.internetOffset.read? f (o.text ++ rest) = some ({ f with offset := o.seconds }, rest) := by
  -- this form takes exactly one colon
  have hcolon : ∀ n rest,
      oneColon? (':' :: (paddedDigits 2 n ++ rest)) = some (paddedDigits 2 n ++ rest) :=
    fun _ _ => rfl
  have hoffset := takeOffset?_text hcolon ho rest
  obtain ⟨sign, tail, hsign, htext⟩ := exists_sign_offsetText o
  rw [htext, List.cons_append] at hoffset ⊢
  -- the sign is not the letter of universal time
  rcases hsign with rfl | rfl
  · change (takeOffset? oneColon? ('+' :: (tail ++ rest))).map _ = _
    rw [hoffset]
    rfl
  · change (takeOffset? oneColon? ('-' :: (tail ++ rest))).map _ = _
    rw [hoffset]
    rfl

/-- The loose offset is read back. It takes any colons and blanks between the numbers, of which
there is one colon. -/
theorem Item.read?_looseOffset {o : Offset} (ho : o.seconds % 60 = 0) (f : Fields)
    (rest : List Char) :
    Item.looseOffset.read? f (o.text ++ rest) = some ({ f with offset := o.seconds }, rest) := by
  have hseparator : ∀ n rest,
      anyColons? (':' :: (paddedDigits 2 n ++ rest)) = some (paddedDigits 2 n ++ rest) := by
    intro n rest
    have hds := isDigits_paddedDigits 2 n
    obtain ⟨d, ds, hcons⟩ := List.exists_cons_of_ne_nil hds.ne_nil
    have hdigit : d.isDigit = true := hds.isDigit d (hcons ▸ List.mem_cons_self)
    have hcolon : d ≠ ':' := by
      rintro rfl
      cases hdigit
    -- behind the colon the digits begin, which are neither colons nor blanks
    rw [anyColons?, List.dropWhile_cons_of_pos rfl, hcons, List.cons_append,
      List.dropWhile_cons_of_neg]
    simp [hcolon, isBlank_of_isDigit hdigit]
  have hoffset := takeOffset?_text hseparator ho rest
  rw [Item.read?, skipBlanks_offsetText, hoffset]
  rfl

end QueryGateway.Calendar
