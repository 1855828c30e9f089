import Mathlib.Algebra.Order.Field.Rat
import Mathlib.Tactic.FieldSimp
import Mathlib.Tactic.NormNum
import QueryGateway.Number.Decimal
import QueryGateway.Proofs.Text.Blank
import QueryGateway.Proofs.Text.Digits

/-!
# Decimals and their texts

What a decimal is worth, and that its text is worth the same. A text consists of a significand,
which is a sign and digits with a point among them, and of an exponent after a mark. Both are read
apart (`ofText?_of_isSignificand`, `ofText?_exponent`), and the four forms in which decimals are
written are such texts (`exists_ofText?_text`). The forms keep the scale, but for the one that
writes out the zeros of a negative scale: from there the digits come back with the zeros.
-/

namespace QueryGateway.Number.Decimal

open Text

/-- **The value of a decimal,** as a rational. Two decimals of different scales may have one
value. -/
def value (d : Decimal) : ℚ :=
  d.digits * 10 ^ (-d.scale)

/-! ### Significands -/

/-- The sign in front of the digits of an integer. -/
def signText (n : Int) : List Char :=
  if n < 0 then ['-'] else []

/-- A number with the sign of an integer. -/
def withSign (n : Int) (k : Nat) : Int :=
  if n < 0 then -(k : Int) else k

theorem withSign_natAbs_mul (n : Int) (k : Nat) : withSign n (n.natAbs * k) = n * k := by
  unfold withSign
  split
  · have habs : (n.natAbs : Int) = -n := by omega
    rw [Nat.cast_mul, habs, Int.neg_mul, Int.neg_neg]
  · have habs : (n.natAbs : Int) = n := by omega
    rw [Nat.cast_mul, habs]

theorem withSign_natAbs (n : Int) : withSign n n.natAbs = n := by
  have h := withSign_natAbs_mul n 1
  rwa [Nat.mul_one, Nat.cast_one, Int.mul_one] at h

/-- Digits alone are read as their number. Underscores among them would be dropped, and there are
none. -/
theorem unsignedDigits?_of_isDigits {ds : List Char} (h : IsDigits ds) :
    unsignedDigits? ds = some (valueOfDigits ds) := by
  have hkept : ds.filter (· != '_') = ds := by
    rw [List.filter_eq_self]
    intro c hc
    rw [bne_iff_ne]
    rintro rfl
    cases h.isDigit '_' hc
  have hall : ds.all Char.isDigit = true := List.all_eq_true.2 h.isDigit
  unfold unsignedDigits?
  split
  · -- what is refused is an empty text and one that begins with an underscore
    exact absurd rfl h.ne_nil
  · cases h.isDigit '_' List.mem_cons_self
  · simp only [hkept, hall, if_true]

/-- A sign and digits are read as the number with the sign. -/
theorem signedDigits?_signText (n : Int) {ds : List Char} (h : IsDigits ds) :
    signedDigits? (signText n ++ ds) = some (withSign n (valueOfDigits ds)) := by
  have hread := unsignedDigits?_of_isDigits h
  unfold signText withSign
  by_cases hneg : n < 0
  · rw [if_pos hneg, if_pos hneg, List.singleton_append, signedDigits?, hread]
    rfl
  · -- without a sign the text begins with a digit, and so with neither of the signs that are looked
    -- for
    have hplain : positiveDigits? ds = some (valueOfDigits ds) := by
      unfold positiveDigits?
      split
      · exact absurd rfl h.head?_ne_sign.2
      · exact absurd rfl h.head?_ne_sign.2
      · exact hread
    rw [if_neg hneg, if_neg hneg, List.nil_append]
    unfold signedDigits?
    split
    · exact absurd rfl h.head?_ne_sign.1
    · rw [hplain]
      rfl

theorem splitPoint_of_not_mem {cs : List Char} (h : '.' ∉ cs) : splitPoint cs = (cs, 0) := by
  have hnone : cs.dropWhile (· != '.') = [] := by
    rw [List.dropWhile_eq_nil_iff]
    intro c hc
    rw [bne_iff_ne]
    rintro rfl
    exact h hc
  rw [splitPoint, hnone]

/-- A text is split at its first point. What is behind it counts as places, underscores apart. -/
theorem splitPoint_append {whole after : List Char} (hwhole : '.' ∉ whole) (hafter : '_' ∉ after) :
    splitPoint (whole ++ '.' :: after) = (whole ++ after, after.length) := by
  have hfront : ∀ c ∈ whole, (c != '.') = true := by
    intro c hc
    rw [bne_iff_ne]
    rintro rfl
    exact hwhole hc
  have hkept : after.filter (· != '_') = after := by
    rw [List.filter_eq_self]
    intro c hc
    rw [bne_iff_ne]
    rintro rfl
    exact hafter hc
  rw [splitPoint, List.dropWhile_append_of_pos hfront, List.takeWhile_append_of_pos hfront]
  simp [hkept]

/-- **A significand:** what stands before the mark of an exponent, with the value of its digits and
the number of those behind the point. -/
structure IsSignificand (cs : List Char) (value : Int) (places : Nat) : Prop where
  noMark : ∀ c ∈ cs, c ≠ 'e' ∧ c ≠ 'E'
  reads : ∃ ds, splitPoint cs = (ds, places) ∧ signedDigits? ds = some value

section Forms

variable (n : Int) {ds : List Char}

/-- The characters of a sign and digits are no marks and no points, so nothing is split among
them. -/
theorem noMark_signText (h : ∀ c ∈ ds, c.isDigit = true) :
    ∀ c ∈ signText n ++ ds, c ≠ 'e' ∧ c ≠ 'E' ∧ c ≠ '.' := by
  intro c hc
  rcases List.mem_append.1 hc with hsign | hdigit
  · -- the sign is a minus or nothing
    unfold signText at hsign
    split at hsign
    · obtain rfl := List.mem_singleton.1 hsign
      decide
    · cases hsign
  · have hc := h c hdigit
    refine ⟨?_, ?_, ?_⟩ <;>
    · rintro rfl
      cases hc

theorem isSignificand_plain (h : IsDigits ds) :
    IsSignificand (signText n ++ ds) (withSign n (valueOfDigits ds)) 0 := by
  have hmarks := noMark_signText n h.isDigit
  have hsplit : splitPoint (signText n ++ ds) = (signText n ++ ds, 0) :=
    splitPoint_of_not_mem fun hmem => (hmarks _ hmem).2.2 rfl
  exact ⟨fun c hc => ⟨(hmarks c hc).1, (hmarks c hc).2.1⟩, _, hsplit, signedDigits?_signText n h⟩

/-- Digits with a point behind them, and more digits behind that. -/
theorem isSignificand_point {whole after : List Char} (h : IsDigits whole)
    (hafter : ∀ c ∈ after, c.isDigit = true) :
    IsSignificand (signText n ++ (whole ++ '.' :: after))
      (withSign n (valueOfDigits (whole ++ after))) after.length := by
  have hmarks := noMark_signText n h.isDigit
  have hback := noMark_signText 0 hafter
  -- the first point is the one behind the whole digits
  have hsplit : splitPoint (signText n ++ (whole ++ '.' :: after)) =
      (signText n ++ (whole ++ after), after.length) := by
    rw [← List.append_assoc, splitPoint_append (fun hmem => (hmarks _ hmem).2.2 rfl),
      List.append_assoc]
    -- there is no underscore behind the point
    intro hline
    cases hafter _ hline
  refine ⟨fun c hc => ?_, _, hsplit, signedDigits?_signText n (h.append hafter)⟩
  -- no mark is in front of the point or behind it
  rw [← List.append_assoc] at hc
  rcases List.mem_append.1 hc with hfront | hrest
  · exact ⟨(hmarks c hfront).1, (hmarks c hfront).2.1⟩
  rcases List.mem_cons.1 hrest with rfl | hrest
  · decide
  · exact ⟨(hback c hrest).1, (hback c hrest).2.1⟩

/-- A point behind the first digit. -/
theorem isSignificand_withLeadingPoint (h : IsDigits ds) :
    IsSignificand (signText n ++ withLeadingPoint ds) (withSign n (valueOfDigits ds))
      (ds.length - 1) := by
  match ds, h with
  | [], h => exact absurd rfl h.ne_nil
  | [d], h => exact isSignificand_plain n h
  | d :: e :: rest, h =>
    have hfirst : IsDigits [d] := isDigits_singleton (h.isDigit d List.mem_cons_self)
    exact isSignificand_point n hfirst fun c hc => h.isDigit c (List.mem_cons_of_mem d hc)

/-- A point among the digits, or before them and zeros. -/
theorem isSignificand_withPoint (h : IsDigits ds) (places : Nat) :
    IsSignificand (signText n ++ withPoint ds places) (withSign n (valueOfDigits ds)) places := by
  unfold withPoint
  -- either the point goes among the digits, so many from the end
  by_cases hlt : places < ds.length
  · have hdrop : (ds.drop (ds.length - places)).length = places := by
      rw [List.length_drop]
      omega
    have hwhole : IsDigits (ds.take (ds.length - places)) :=
      ⟨List.ne_nil_of_length_pos (by rw [List.length_take]; omega),
        fun c hc => h.isDigit c (List.mem_of_mem_take hc)⟩
    have hpoint := isSignificand_point n hwhole
      fun c hc => h.isDigit c (List.mem_of_mem_drop (i := ds.length - places) hc)
    rw [if_pos hlt]
    rwa [hdrop, List.take_append_drop] at hpoint
  · -- or there are too few, and zeros fill up between the point and the digits
    have hafter : IsDigits (List.replicate (places - ds.length) '0' ++ ds) :=
      .append_left (fun _ hc => isDigit_of_mem_replicate hc) h
    have hlength : (List.replicate (places - ds.length) '0' ++ ds).length = places := by
      rw [List.length_append, List.length_replicate]
      omega
    -- zeros in front are worth nothing
    have hvalue : valueOfDigits (['0'] ++ (List.replicate (places - ds.length) '0' ++ ds)) =
        valueOfDigits ds := by
      rw [← List.append_assoc, ← List.replicate_one, List.replicate_append_replicate,
        valueOfDigits_append, valueOfDigits_replicate_zero, Nat.zero_mul, Nat.zero_add]
    have hpoint := isSignificand_point n (isDigits_singleton (d := '0') rfl) hafter.isDigit
    rw [if_neg hlt]
    rwa [hlength, hvalue] at hpoint

end Forms

/-! ### Texts -/

/-- **An exponent** behind a significand: nothing, or a mark and an integer. The integer may have a
sign and any number of digits. -/
inductive IsExponent : List Char → Int → Prop where
  | absent : IsExponent [] 0
  | marked {mark : Char} (hmark : mark = 'e' ∨ mark = 'E') {es : List Char} {exponent : Int}
    (h : signed? es = some exponent) : IsExponent (mark :: es) exponent

/-- **A significand and its exponent** make a decimal. -/
theorem ofText?_append {cs es : List Char} {n exponent : Int} {places : Nat}
    (h : IsSignificand cs n places) (hexponent : IsExponent es exponent)
    (hscale : isScale (places - exponent) = true) :
    ofText? (cs ++ es) = some ⟨n, places - exponent⟩ := by
  -- everything of the significand passes, since it has no mark
  have hfront : ∀ c ∈ cs, (!(decide (c = 'e') || decide (c = 'E'))) = true := by
    intro c hc
    simp [h.noMark c hc]
  -- the mark ends the significand, and without one the text does
  have hstop : es.takeWhile (fun c => !(decide (c = 'e') || decide (c = 'E'))) = [] ∧
      es.dropWhile (fun c => !(decide (c = 'e') || decide (c = 'E'))) = es := by
    cases hexponent with
    | absent => exact ⟨rfl, rfl⟩
    | marked hmark h => rcases hmark with rfl | rfl <;> exact ⟨rfl, rfl⟩
  obtain ⟨ds, hsplit, hdigits⟩ := h.reads
  unfold ofText?
  simp only [List.dropWhile_append_of_pos hfront, List.takeWhile_append_of_pos hfront, hstop,
    List.append_nil, hsplit, hdigits]
  -- the places go against the exponent
  cases hexponent with
  | absent =>
    dsimp only
    rw [Option.bind_eq_bind, Option.bind_some, Option.bind_some, if_pos hscale]
  | marked hmark hread =>
    dsimp only
    rw [hread, Option.bind_eq_bind, Option.bind_some, Option.bind_some, if_pos hscale]

theorem isExponent_plus (k : Nat) : IsExponent ('e' :: '+' :: Text.digits k) k :=
  .marked (.inl rfl) (signed?_plus_eq_some_iff.2
    ⟨isDigits_digits k, congrArg Nat.cast (valueOfDigits_digits k)⟩)

theorem isExponent_minus (k : Nat) : IsExponent ('E' :: '-' :: Text.digits k) (-k) :=
  .marked (.inr rfl) (signed?_minus_eq_some_iff.2
    ⟨isDigits_digits k, congrArg (fun n : Nat => -(n : Int)) (valueOfDigits_digits k)⟩)

theorem isScale_of_mem {scale : Int} (h : -2 ^ 31 ≤ scale ∧ scale < 2 ^ 31) :
    isScale scale = true := by
  have hpow : Int.pow 2 63 = 2 ^ 63 := rfl
  rw [isScale, hpow, Bool.and_eq_true, decide_eq_true_iff, decide_eq_true_iff]
  omega

section Magnitudes

variable (n : Int) {ds : List Char} {scale : Int}

/-- Digits with a point among them, or before them, or with a negative exponent. In each case the
digits and the scale come back as they were. -/
theorem ofText?_magnitudeText_of_pos (hds : IsDigits ds) (hscale : isScale scale = true)
    (hpos : 0 < scale) :
    ofText? (signText n ++ magnitudeText ds scale) =
      some ⟨withSign n (valueOfDigits ds), scale⟩ := by
  rw [magnitudeText, if_pos hpos]
  -- far behind the point an exponent is written, which makes up for the places
  by_cases hfar : ds.length + mostLeadingZeros < scale.toNat
  · have hplaces :
        ((ds.length - 1 : Nat) : Int) - (-((scale.toNat - (ds.length - 1) : Nat) : Int)) =
          scale := by
      omega
    rw [if_pos hfar, ← List.append_assoc]
    rw [ofText?_append (isSignificand_withLeadingPoint n hds)
      (isExponent_minus _) (by rwa [hplaces]), hplaces]
  · -- near enough the point is written among the digits or zeros, without an exponent
    have hplaces : (scale.toNat : Int) - 0 = scale := by omega
    have hread := ofText?_append (isSignificand_withPoint n hds scale.toNat) .absent
      (by rwa [hplaces])
    rw [if_neg hfar]
    rwa [List.append_nil, hplaces] at hread

/-- Digits with a positive exponent. -/
theorem ofText?_magnitudeText_of_lt (hds : IsDigits ds) (hscale : isScale scale = true)
    (hnonpos : ¬0 < scale) (hfar : mostTrailingZeros < (-scale).toNat) :
    ofText? (signText n ++ magnitudeText ds scale) =
      some ⟨withSign n (valueOfDigits ds), scale⟩ := by
  have hplaces : ((0 : Nat) : Int) - ((-scale).toNat : Nat) = scale := by omega
  rw [magnitudeText, if_neg hnonpos]
  dsimp only
  rw [if_neg hfar.not_ge, ← List.append_assoc]
  rw [ofText?_append (isSignificand_plain n hds) (isExponent_plus _) (by rwa [hplaces]), hplaces]

/-- Digits with zeros behind them. The zeros are read as digits, so the scale comes back as zero. -/
theorem ofText?_magnitudeText_of_le (hds : IsDigits ds) (hnonpos : ¬0 < scale)
    (hnear : (-scale).toNat ≤ mostTrailingZeros) :
    ofText? (signText n ++ magnitudeText ds scale) =
      some ⟨withSign n (valueOfDigits ds * 10 ^ (-scale).toNat), 0⟩ := by
  have hzeros : IsDigits (ds ++ List.replicate (-scale).toNat '0') :=
    hds.append fun _ hc => isDigit_of_mem_replicate hc
  have hread := ofText?_append (isSignificand_plain n hzeros) .absent
    (isScale_of_mem (by decide))
  rw [magnitudeText, if_neg hnonpos]
  dsimp only
  rw [if_pos hnear]
  rwa [List.append_nil, valueOfDigits_append, valueOfDigits_replicate_zero, List.length_replicate,
    Nat.add_zero] at hread

end Magnitudes

/-- The text of a decimal that is not zero. -/
theorem toList_text {d : Decimal} (h : d.digits ≠ 0) :
    d.text.toList = signText d.digits ++ magnitudeText (Text.digits d.digits.natAbs) d.scale := by
  unfold text signText
  rw [if_neg h]
  split <;> simp

/-- **The text of a decimal is worth the decimal,** if its scale is within thirty-two bits. The
decimal that is read need not be the same: zero loses its scale, and zeros behind the digits become
digits. -/
theorem exists_ofText?_text {d : Decimal} (hscale : -2 ^ 31 ≤ d.scale ∧ d.scale < 2 ^ 31) :
    ∃ e, ofText? d.text.toList = some e ∧ e.value = d.value := by
  -- zero is written without its scale, and is worth nothing with any
  by_cases hzero : d.digits = 0
  · have htext : d.text.toList = signText 0 ++ ['0'] ++ [] := by
      rw [text, if_pos hzero]
      rfl
    have hread := ofText?_append (isSignificand_plain 0 (isDigits_singleton (d := '0') rfl)) .absent
      (isScale_of_mem (by decide))
    rw [← htext] at hread
    refine ⟨_, hread, ?_⟩
    simp [value, hzero, withSign, valueOfDigits, digitValue]
  have hds := isDigits_digits d.digits.natAbs
  -- the sign goes with the digits
  have hvalue : withSign d.digits (valueOfDigits (Text.digits d.digits.natAbs)) = d.digits := by
    rw [valueOfDigits_digits, withSign_natAbs]
  rw [toList_text hzero]
  -- with a point, the decimal comes back as it was
  by_cases hpos : 0 < d.scale
  · rw [ofText?_magnitudeText_of_pos _ hds (isScale_of_mem hscale) hpos, hvalue]
    exact ⟨d, rfl, rfl⟩
  -- with a positive exponent as well
  by_cases hfar : mostTrailingZeros < (-d.scale).toNat
  · rw [ofText?_magnitudeText_of_lt _ hds (isScale_of_mem hscale) hpos hfar, hvalue]
    exact ⟨d, rfl, rfl⟩
  · rw [ofText?_magnitudeText_of_le _ hds hpos (Nat.le_of_not_lt hfar), valueOfDigits_digits,
      withSign_natAbs_mul]
    refine ⟨_, rfl, ?_⟩
    -- the zeros behind the digits are the power of ten of the scale
    obtain ⟨zeros, hzeros⟩ := Int.eq_ofNat_of_zero_le (Int.neg_nonneg.2 (Int.not_lt.1 hpos))
    rw [value, value, hzeros, Int.toNat_natCast, zpow_natCast]
    push_cast
    rw [mul_one]

/-! ### No blanks -/

section Blanks

variable {ds : List Char}

/-- No character of a decimal is blank, so its text is not changed by trimming. First those around a
point. -/
theorem isBlank_of_mem_withPoint (h : ∀ c ∈ ds, c.isDigit = true) (places : Nat) :
    ∀ c ∈ withPoint ds places, isBlank c = false := by
  have hds := isBlank_of_mem_digits h
  have hzeros : ∀ k, ∀ c ∈ List.replicate k '0', isBlank c = false := fun k =>
    isBlank_of_mem_digits fun _ hc => isDigit_of_mem_replicate hc
  unfold withPoint
  split
  · rw [List.forall_mem_append, List.forall_mem_cons]
    exact ⟨fun c hc => hds c (List.mem_of_mem_take hc), rfl, fun c hc =>
      hds c (List.mem_of_mem_drop hc)⟩
  · rw [List.forall_mem_cons, List.forall_mem_cons, List.forall_mem_append]
    exact ⟨rfl, rfl, hzeros _, hds⟩

theorem isBlank_of_mem_withLeadingPoint (h : ∀ c ∈ ds, c.isDigit = true) :
    ∀ c ∈ withLeadingPoint ds, isBlank c = false := by
  have hds := isBlank_of_mem_digits h
  unfold withLeadingPoint
  split
  · exact hds
  · exact hds
  · rw [List.forall_mem_cons] at hds
    rw [List.forall_mem_cons, List.forall_mem_cons]
    exact ⟨hds.1, rfl, hds.2⟩

/-- No character of the digits, point and exponent is blank. -/
theorem isBlank_of_mem_magnitudeText (h : ∀ c ∈ ds, c.isDigit = true) (scale : Int) :
    ∀ c ∈ magnitudeText ds scale, isBlank c = false := by
  have hds := isBlank_of_mem_digits h
  have hexponent : ∀ k, ∀ c ∈ Text.digits k, isBlank c = false := fun k =>
    isBlank_of_mem_digits (isDigits_digits k).isDigit
  unfold magnitudeText
  split
  · split
    · rw [List.forall_mem_append, List.forall_mem_cons, List.forall_mem_cons]
      exact ⟨isBlank_of_mem_withLeadingPoint h, rfl, rfl, hexponent _⟩
    · exact isBlank_of_mem_withPoint h _
  dsimp only
  split
  · rw [List.forall_mem_append]
    exact ⟨hds, isBlank_of_mem_digits fun _ hc => isDigit_of_mem_replicate hc⟩
  · rw [List.forall_mem_append, List.forall_mem_cons, List.forall_mem_cons]
    exact ⟨hds, rfl, rfl, hexponent _⟩

end Blanks

/-- The text of a decimal has no blanks. -/
theorem isBlank_of_mem_text (d : Decimal) : ∀ c ∈ d.text.toList, isBlank c = false := by
  by_cases hzero : d.digits = 0
  · rw [text, if_pos hzero]
    exact List.forall_mem_singleton.2 rfl
  · rw [toList_text hzero, List.forall_mem_append]
    refine ⟨?_, isBlank_of_mem_magnitudeText (isDigits_digits _).isDigit _⟩
    unfold signText
    split <;> simp [isBlank]

end QueryGateway.Number.Decimal
