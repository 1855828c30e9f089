import QueryGateway.Calendar.Pattern
import QueryGateway.Proofs.Text.Blank

/-!
# The two readers of date-times

A date-time without offset and one with an offset are read by trying forms in order. The readers
share the internet form, the plain forms and the form of a date; the second one has a form more, in
which an offset stands apart. A text in that form is in none of the plain forms
(`looseOffset_apart`), so the first reader refuses it. On all other texts the two agree
(`map_utc_readOffsetDateTime?`).

The argument is about patterns as lists: what a list of items reads is what its front reads and then
its back (`readFrom?_append`). All the forms but the internet one begin with a loose date, so two of
them that read one text part only behind it.
-/

namespace QueryGateway.Calendar

open Text

namespace Pattern

/-- **A pattern in two parts** reads with the first and goes on with the second. -/
theorem readFrom?_append (p q : Pattern) (f : Fields) (cs : List Char) :
    readFrom? (p ++ q) f cs = (readFrom? p f cs).bind fun r => readFrom? q r.1 r.2 := by
  induction p generalizing f cs with
  | nil => rfl
  | cons item items ih =>
    rw [List.cons_append, readFrom?, readFrom?]
    cases item.read? f cs with
    | none => rfl
    | some r => exact ih r.1 r.2

theorem readFrom?_cons (item : Item) (q : Pattern) (f : Fields) (cs : List Char) :
    readFrom? (item :: q) f cs = (item.read? f cs).bind fun r => readFrom? q r.1 r.2 := by
  rw [readFrom?]
  cases item.read? f cs <;> rfl

/-- A pattern reads a text if its items do and nothing is left. -/
theorem read?_eq_some_iff {p : Pattern} {cs : List Char} {f : Fields} :
    p.read? cs = some f ↔ readFrom? p {} cs = some (f, []) := by
  unfold read?
  constructor
  · intro h
    split at h
    · next f' hread =>
      obtain rfl := Option.some.inj h
      exact hread
    · cases h
  · intro h
    rw [h]

/-- **A text that is read with more behind** is not read without it, if the rest reads something. -/
theorem read?_eq_none_of_append {p q : Pattern} {cs : List Char} {r : Fields × List Char}
    (hneeds : ∀ f, readFrom? q f [] = none) (h : readFrom? (p ++ q) {} cs = some r) :
    p.read? cs = none := by
  rw [readFrom?_append, Option.bind_eq_some_iff] at h
  obtain ⟨m, hfront, hback⟩ := h
  rw [Option.eq_none_iff_forall_ne_some]
  intro f hread
  rw [read?_eq_some_iff, hfront] at hread
  obtain rfl := Option.some.inj hread
  rw [hneeds] at hback
  cases hback

end Pattern

/-! ### The form whose offset stands apart -/

/-- A number is read where a digit stands. -/
theorem exists_digit_of_takeNumber? {most : Nat} {cs : List Char} {r : Nat × List Char}
    (h : takeNumber? most cs = some r) : ∃ c, cs.head? = some c ∧ c.isDigit = true := by
  cases cs with
  | nil => simp [takeNumber?, takeDigits] at h
  | cons c rest =>
    refine ⟨c, rfl, Bool.of_not_eq_false fun hdigit => ?_⟩
    have hnone : ((c :: rest).take most).takeWhile Char.isDigit = [] := by
      cases most <;> simp [hdigit]
    rw [takeNumber?, takeDigits, hnone] at h
    cases h

/-- **The letter T is in the way of blanks and a number.** -/
theorem head?_ne_of_blanks {part : Part} {q : Pattern} {f : Fields} {cs : List Char}
    {r : Fields × List Char}
    (h : Pattern.readFrom? (.blanks :: .loose part :: q) f cs = some r) : cs.head? ≠ some 'T' := by
  intro hhead
  rw [Pattern.readFrom?_cons, Option.bind_eq_some_iff] at h
  obtain ⟨m, hblanks, h⟩ := h
  obtain rfl := Option.some.inj hblanks
  rw [Pattern.readFrom?_cons, Option.bind_eq_some_iff] at h
  obtain ⟨m, hnumber, -⟩ := h
  obtain ⟨n, hn, -⟩ := Option.map_eq_some_iff.1 hnumber
  obtain ⟨c, hc, hdigit⟩ := exists_digit_of_takeNumber? hn
  -- the letter is no blank, so it stays in front, and it is no digit
  have hkept : skipBlanks cs = cs := skipBlanks_eq_self fun d hd => by
    obtain rfl := Option.some.inj (hhead.symm.trans hd)
    rfl
  change (skipBlanks (skipBlanks cs)).head? = some c at hc
  rw [hkept, hkept, hhead] at hc
  obtain rfl := Option.some.inj hc
  cases hdigit

/-- **An offset that stands apart** keeps a text from being read without an offset: no form of a
date-time reads it, and the form of a date does not. -/
theorem looseOffset_apart {cs : List Char} {f : Fields}
    (h : Pattern.looseOffsetDateTime.read? cs = some f) :
    (∀ p ∈ Pattern.dateTimes, p.read? cs = none) ∧ Pattern.looseDate.read? cs = none := by
  rw [Pattern.read?_eq_some_iff] at h
  -- a form that needs more than the front of the pattern has nothing to read it from
  have hfront : ∀ p q, p ++ q = Pattern.looseOffsetDateTime →
      (∀ f, Pattern.readFrom? q f [] = none) → p.read? cs = none := by
    intro p q heq hneeds
    rw [← heq] at h
    exact Pattern.read?_eq_none_of_append hneeds h
  -- behind the date stand blanks and a number, so the letter T does not
  have hletter : ∀ q, Pattern.read? (Pattern.looseDate ++ Item.mark ['T'] :: q) cs = none := by
    intro q
    have hshape : Pattern.looseOffsetDateTime = Pattern.looseDate ++
        .blanks :: .loose .hour :: Pattern.looseOffsetDateTime.drop 7 := rfl
    rw [hshape, Pattern.readFrom?_append, Option.bind_eq_some_iff] at h
    -- what the date leaves is the same for both forms, and one of them asks for the letter there
    obtain ⟨day, hday, hback⟩ := h
    rw [Option.eq_none_iff_forall_ne_some]
    intro g hg
    rw [Pattern.read?_eq_some_iff, Pattern.readFrom?_append, hday, Option.bind_some,
      Pattern.readFrom?_cons, Option.bind_eq_some_iff] at hg
    obtain ⟨m, hmark, -⟩ := hg
    refine head?_ne_of_blanks hback ?_
    cases hrest : day.2 with
    | nil =>
      rw [hrest] at hmark
      cases hmark
    | cons c rest =>
      rw [hrest] at hmark
      have hc : c ∈ ['T'] := (Option.ite_none_right_eq_some.1 hmark).1
      exact congrArg some (List.mem_singleton.1 hc)
  constructor
  · -- two of the forms have the letter, and the two others are fronts of the one with the offset
    intro p hp
    simp only [Pattern.dateTimes, List.mem_cons, List.not_mem_nil, or_false] at hp
    rcases hp with rfl | rfl | rfl | rfl
    · exact hletter _
    · exact hfront _ [.blanks, .looseOffset] rfl fun _ => rfl
    · exact hletter _
    · exact hfront _ (Pattern.looseOffsetDateTime.drop 9) rfl fun _ => rfl
  · exact hfront _ (Pattern.looseOffsetDateTime.drop 5) rfl fun _ => rfl

/-! ### The two readers -/

section Readers

variable {s : String} {t : OffsetDateTime}

/-- A text in the internet form is read by both readers. -/
theorem readDateTime?_of_internet (h : readInternet? (trimChars s.toList) = some t) :
    readDateTime? s = some t.utc ∧ readOffsetDateTime? s = some t := by
  simp only [readDateTime?, readOffsetDateTime?, h, Option.some_or, and_self]

theorem readDateTime?_of_not_internet (h : readInternet? (trimChars s.toList) = none) :
    readDateTime? s =
      (readPlainDateTime? (trimChars s.toList)).or (readDay? (trimChars s.toList)) := by
  simp only [readDateTime?, h]

/-- **A text with an offset that stands apart:** the form that only the reader with offsets has
names a moment, and the internet form names none. -/
structure SetsOffsetApart (s : String) (t : OffsetDateTime) : Prop where
  /-- The form names the moment. -/
  named : (Pattern.looseOffsetDateTime.read? (trimChars s.toList)).bind Fields.offsetDateTime? =
    some t
  /-- The internet form names none. -/
  not_internet : readInternet? (trimChars s.toList) = none

/-- The reader without offsets refuses a text with an offset that stands apart. -/
theorem SetsOffsetApart.readDateTime?_eq (h : SetsOffsetApart s t) : readDateTime? s = none := by
  obtain ⟨f, hread, -⟩ := Option.bind_eq_some_iff.1 h.named
  obtain ⟨hplain, hdate⟩ := looseOffset_apart hread
  have hnone : readPlainDateTime? (trimChars s.toList) = none := by
    rw [readPlainDateTime?, List.findSome?_eq_none_iff]
    intro p hp
    rw [hplain p hp, Option.bind_none]
  rw [readDateTime?_of_not_internet h.not_internet, hnone, readDay?, hdate]
  rfl

theorem SetsOffsetApart.readOffsetDateTime?_eq (h : SetsOffsetApart s t) :
    readOffsetDateTime? s = some t := by
  simp only [readOffsetDateTime?, h.not_internet, h.named, Option.none_or]
  rfl

/-- **Apart from the texts with an offset that stands apart,** both readers read the same texts, and
the same moment in them. -/
theorem map_utc_readOffsetDateTime? (h : ∀ t, ¬SetsOffsetApart s t) :
    (readOffsetDateTime? s).map OffsetDateTime.utc = readDateTime? s := by
  cases hinternet : readInternet? (trimChars s.toList) with
  | some t =>
    obtain ⟨hread, hoffset⟩ := readDateTime?_of_internet hinternet
    rw [hread, hoffset, Option.map_some]
  | none =>
    have hloose : (Pattern.looseOffsetDateTime.read? (trimChars s.toList)).bind
        Fields.offsetDateTime? = none := by
      rw [Option.eq_none_iff_forall_ne_some]
      -- the loose form with an offset was tried next, and reads only what sets its offset apart
      exact fun t ht => h t ⟨ht, hinternet⟩
    -- what has no offset is taken as universal time, which changes nothing
    have hsame : OffsetDateTime.utc ∘ OffsetDateTime.ofUtc = id := rfl
    simp only [readOffsetDateTime?, hinternet, hloose, Option.none_or, Option.map_map, hsame,
      Option.map_id, id_eq]

end Readers

end QueryGateway.Calendar
