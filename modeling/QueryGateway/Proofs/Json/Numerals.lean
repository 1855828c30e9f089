import QueryGateway.Json.Value
import QueryGateway.Proofs.Json.Grammar
import QueryGateway.Proofs.Number.Shortest

/-!
# Numerals and their numbers

The number that a numeral stands for (`Numeral.number`), in exact arithmetic, and the numerals that
are written for numbers: an integer is written as itself (`writes_integerText`), and a
floating-point number as its shortest decimal form, with or without an exponent
(`exists_numeral_of_floatText`).
-/

namespace QueryGateway.Json

open Number Text

namespace Numeral

/-- The digits of a numeral as one natural. -/
def significand (n : Numeral) : Nat :=
  valueOfDigits (n.whole ++ n.fraction.getD [])

/-- The power of ten behind the digits. -/
def power (n : Numeral) : Int :=
  n.exponent.getD 0 - (n.fraction.getD []).length

/-- The number without its sign. -/
def magnitude (n : Numeral) : ℚ :=
  n.significand * 10 ^ n.power

/-- **The number that a numeral stands for,** as a rational, however it is written. -/
def number (n : Numeral) : ℚ :=
  if n.isNegative then -n.magnitude else n.magnitude

theorem magnitude_nonneg (n : Numeral) : 0 ≤ n.magnitude :=
  mul_nonneg (Nat.cast_nonneg _) (zpow_nonneg (by norm_num) _)

theorem abs_number (n : Numeral) : |n.number| = n.magnitude := by
  unfold number
  split
  · rw [abs_neg, abs_of_nonneg n.magnitude_nonneg]
  · rw [abs_of_nonneg n.magnitude_nonneg]

end Numeral

/-- A number is written with its sign. -/
theorem writes_number {n : Numeral} {cs : List Char} (h : IsUnsigned n cs) :
    Writes ((if n.isNegative then ['-'] else []) ++ cs) (.value (.number n)) := by
  cases hsign : n.isNegative with
  | true => exact .negative hsign h
  | false => exact .positive hsign h

/-! ### Integers -/

/-- The numeral of an integer. -/
def integerNumeral (n : Int) : Numeral :=
  ⟨n < 0, digits n.natAbs, none, none⟩

theorem isWhole_digits (n : Nat) : IsWhole (digits n) where
  toIsDigits := isDigits_digits n
  no_leadingZero := by
    intro h
    obtain rfl | hpos := Nat.eq_zero_or_pos n
    · rfl
    · exact absurd h (head?_digits_ne hpos)

/-- **An integer is written** as a number without fraction and exponent. -/
theorem writes_integerText (n : Int) :
    Writes (integerText n).toList (.value (.number (integerNumeral n))) := by
  have hunsigned : IsUnsigned (integerNumeral n) (digits n.natAbs) :=
    ⟨isWhole_digits _, [], [], .absent, .absent, (List.append_nil _).symm⟩
  have hwrites := writes_number hunsigned
  -- the sign of the numeral is that of the integer
  have htext : (integerText n).toList =
      (if (integerNumeral n).isNegative then ['-'] else []) ++ digits n.natAbs := by
    unfold integerText integerNumeral
    by_cases hneg : n < 0 <;> simp [hneg]
  rwa [htext]

theorem magnitude_integerNumeral (n : Int) : (integerNumeral n).magnitude = n.natAbs := by
  simp [Numeral.magnitude, Numeral.significand, Numeral.power, integerNumeral]

/-! ### Floating-point numbers -/

/-- **Characters that write a number** apart from its sign, which may be put in front of them either
way. -/
def IsMagnitude (cs : List Char) (v : ℚ) : Prop :=
  ∀ isNegative, ∃ n : Numeral, n.isNegative = isNegative ∧ n.magnitude = v ∧ IsUnsigned n cs

theorem isMagnitude_of_parts {whole fs es : List Char} {fraction : Option (List Char)}
    {exponent : Option Int} (hwhole : IsWhole whole) (hfraction : IsFraction fraction fs)
    (hexponent : IsExponent exponent es) {v : ℚ}
    (hv : v = valueOfDigits (whole ++ fraction.getD []) *
      10 ^ (exponent.getD 0 - (fraction.getD []).length)) :
    IsMagnitude (whole ++ (fs ++ es)) v :=
  fun isNegative => ⟨⟨isNegative, whole, fraction, exponent⟩, rfl, hv.symm, hwhole, fs, es,
    hfraction, hexponent, rfl⟩

/-- One digit may be a zero. -/
theorem isWhole_singleton {d : Char} (hd : d.isDigit = true) : IsWhole [d] where
  toIsDigits := isDigits_singleton hd
  no_leadingZero := fun h => congrArg ([·]) (Option.some.inj h)

theorem isWhole_zero : IsWhole ['0'] :=
  isWhole_singleton rfl

theorem valueOfDigits_zero_cons (ds : List Char) : valueOfDigits ('0' :: ds) = valueOfDigits ds :=
  rfl

theorem isWhole_of_head?_ne {ds : List Char} (h : IsDigits ds) (hhead : ds.head? ≠ some '0') :
    IsWhole ds :=
  ⟨h, fun heq => absurd heq hhead⟩

section

variable {s : Nat}

theorem point_not_mem {ds : List Char} (h : IsDigits ds) : '.' ∉ ds := fun hmem =>
  absurd (h.isDigit _ hmem) (by decide)

/-- Zeros behind the digits. -/
theorem isMagnitude_of_zeros (hs : 0 < s) (e : Nat) :
    IsMagnitude (digits s ++ List.replicate e '0' ++ ['.', '0']) (s * 10 ^ (e : Int)) := by
  -- the first digit is not zero, so what is written is a whole part
  have hwhole : IsWhole (digits s ++ List.replicate e '0') := by
    refine isWhole_of_head?_ne
      ((isDigits_digits s).append fun _ hc => isDigit_of_mem_replicate hc) ?_
    rw [List.head?_append_of_ne_nil _ (isDigits_digits s).ne_nil]
    exact head?_digits_ne hs
  refine isMagnitude_of_parts hwhole (.present ['0'] isWhole_zero.toIsDigits) .absent ?_
  -- the zeros shift the digits, and the one behind the point counts as a place too
  have hvalue : valueOfDigits (digits s ++ List.replicate e '0' ++ ['0']) = s * 10 ^ e * 10 := by
    rw [valueOfDigits_append, valueOfDigits_append, valueOfDigits_digits,
      valueOfDigits_replicate_zero, List.length_replicate]
    rfl
  simp only [Option.getD_some, Option.getD_none, hvalue, List.length_singleton, zpow_natCast]
  push_cast
  rw [zpow_neg_one, mul_inv_cancel_right₀ (by norm_num)]

/-- A point among or before the digits. -/
theorem isMagnitude_withPoint (hs : 0 < s) {places : Nat} (hplaces : 0 < places) :
    '.' ∈ withPoint (digits s) places ∧
      IsMagnitude (withPoint (digits s) places) (s * 10 ^ (-(places : Int))) := by
  have hdigits := isDigits_digits s
  unfold withPoint
  split
  next hlt =>
    -- the digits are cut where the point goes, with the given places behind it
    have htake : ((digits s).take ((digits s).length - places)).length =
        (digits s).length - places := List.length_take_of_le (Nat.sub_le _ _)
    have hdrop : ((digits s).drop ((digits s).length - places)).length = places := by
      rw [List.length_drop]
      omega
    -- what is left before the point begins as the digits do, and so not with a zero
    have hwhole : IsWhole ((digits s).take ((digits s).length - places)) := by
      refine isWhole_of_head?_ne ⟨?_, fun c hc => hdigits.isDigit c (List.mem_of_mem_take hc)⟩ ?_
      · exact List.ne_nil_of_length_pos (by omega)
      · rw [List.head?_take, if_neg (by omega)]
        exact head?_digits_ne hs
    have hfraction : IsDigits ((digits s).drop ((digits s).length - places)) :=
      ⟨List.ne_nil_of_length_pos (by omega),
        fun c hc => hdigits.isDigit c (List.mem_of_mem_drop hc)⟩
    refine ⟨by simp, ?_⟩
    have hparts := isMagnitude_of_parts hwhole (.present _ hfraction) .absent (v := _) rfl
    rw [List.append_nil] at hparts
    simpa only [Option.getD_some, Option.getD_none, List.take_append_drop, valueOfDigits_digits,
      hdrop, zero_sub] using hparts
  next hge =>
    -- there are fewer digits than places: zeros fill up behind the point, and a single zero stands
    -- before it
    have hfraction : IsDigits (List.replicate (places - (digits s).length) '0' ++ digits s) :=
      .append_left (fun _ hc => isDigit_of_mem_replicate hc) hdigits
    have hlength :
        (List.replicate (places - (digits s).length) '0' ++ digits s).length = places := by
      rw [List.length_append, List.length_replicate]
      omega
    refine ⟨by simp, ?_⟩
    have hparts := isMagnitude_of_parts isWhole_zero (.present _ hfraction) .absent (v := _) rfl
    rw [List.append_nil] at hparts
    simpa only [Option.getD_some, Option.getD_none, List.singleton_append, valueOfDigits_zero_cons,
      valueOfDigits_append, valueOfDigits_digits, valueOfDigits_replicate_zero, hlength, zero_sub,
      Nat.zero_mul, Nat.zero_add] using hparts

/-- **What is written without an exponent.** -/
theorem isMagnitude_positional (hs : 0 < s) (e : Int) :
    IsMagnitude (if '.' ∈ positional s e then positional s e else positional s e ++ ['.', '0'])
      (s * 10 ^ e) := by
  unfold positional
  split
  next he =>
    -- no place is behind the point, so the text has none and gets one with a zero
    obtain ⟨k, rfl⟩ := Int.eq_ofNat_of_zero_le he
    have hpoint : '.' ∉ digits s ++ List.replicate k '0' :=
      point_not_mem ((isDigits_digits s).append fun _ hc => isDigit_of_mem_replicate hc)
    rw [Int.toNat_natCast, if_neg hpoint]
    exact isMagnitude_of_zeros hs k
  next he =>
    -- the exponent is the number of places
    obtain ⟨hpoint, hmagnitude⟩ := isMagnitude_withPoint hs (by omega : 0 < (-e).toNat)
    have hexp : (-((-e).toNat : Int)) = e := by omega
    rw [hexp] at hmagnitude
    rwa [if_pos hpoint]

/-- An exponent with its sign and two digits at least. -/
theorem isExponent_padded (exponent : Int) : IsExponent (some exponent)
    ('e' :: (if exponent < 0 then '-' else '+') :: paddedDigits 2 exponent.natAbs) := by
  have hdigits := isDigits_paddedDigits 2 exponent.natAbs
  have hvalue := valueOfDigits_paddedDigits 2 exponent.natAbs
  split
  -- the sign goes into the mark, and the padded digits have the magnitude for their value
  next hneg =>
    have hexp : exponent = -(valueOfDigits (paddedDigits 2 exponent.natAbs) : Int) := by omega
    have hminus := IsExponent.minus 'e' _ (.inl rfl) hdigits
    rwa [← hexp] at hminus
  next hnonneg =>
    have hexp : exponent = (valueOfDigits (paddedDigits 2 exponent.natAbs) : Int) := by omega
    have hplus := IsExponent.plus 'e' _ (.inl rfl) hdigits
    rwa [← hexp] at hplus

/-- **What is written with an exponent:** one digit before the point, and the others behind it. The
exponent written is that of the first digit, which the places behind the point make up for. -/
theorem isMagnitude_scientific (s : Nat) (power : Int) :
    IsMagnitude ((match digits s with
      | [] => []
      | [d] => [d]
      | d :: rest => d :: '.' :: rest) ++
        'e' :: (if power + (digits s).length - 1 < 0 then '-' else '+') ::
          paddedDigits 2 (power + (digits s).length - 1).natAbs) (s * 10 ^ power) := by
  have hdigits := isDigits_digits s
  have hvalue := valueOfDigits_digits s
  -- one digit is a whole part even if it is zero
  have hone : ∀ {d : Char} {rest : List Char}, digits s = d :: rest → IsWhole [d] := by
    intro d rest hds
    exact isWhole_singleton (hdigits.isDigit d (by rw [hds]; exact List.mem_cons_self))
  have hexponent := isExponent_padded (power + (digits s).length - 1)
  match hds : digits s with
  | [] => exact absurd hds hdigits.ne_nil
  | [d] =>
    rw [hds] at hexponent hvalue
    refine isMagnitude_of_parts (hone hds) .absent hexponent ?_
    simp [hvalue]
  | d :: c :: rest =>
    rw [hds] at hexponent hvalue
    have hfraction : IsDigits (c :: rest) :=
      ⟨List.cons_ne_nil _ _, fun b hb => hdigits.isDigit b (by rw [hds]; exact .tail _ hb)⟩
    refine isMagnitude_of_parts (hone hds) (.present _ hfraction) hexponent ?_
    -- moving the point behind the first digit changes the power by the digits behind it
    have hpower : power + ((d :: c :: rest).length : Int) - 1 - ((c :: rest).length : Int) =
        power := by
      simp only [List.length_cons]
      omega
    simp only [Option.getD_some, List.singleton_append, hvalue, hpower]

end

/-- The shortest form of a number that is not zero is not zero. -/
theorem shortest_pos (tie : Tie) (x : Double) (hpos : 0 < x.magnitude) :
    0 < (shortest tie x).1 := by
  obtain ⟨d, k, hshortest, hmem, -⟩ := shortest_spec tie x hpos Format.isFine_double
  rw [hshortest]
  refine Nat.pos_of_ne_zero ?_
  rintro rfl
  -- zero lies below the interval
  obtain ⟨-, hlow, -⟩ := x.interval_spec hpos
  have hmiddle : x.interval.middle = 4 * x.significand * 2 ^ x.shift := rfl
  have hsig := (x.significand_spec hpos).1
  have hpow := Nat.two_pow_pos x.shift
  have hzero : x.interval.low = 0 := by
    have := hmem.1
    simp only [Nat.cast_zero, zero_mul, mul_zero] at this
    exact_mod_cast le_antisymm this (Nat.cast_nonneg _)
  have : 4 * 1 * 2 ^ x.shift ≤ 4 * x.significand * 2 ^ x.shift :=
    Nat.mul_le_mul_right _ (Nat.mul_le_mul_left 4 hsig)
  omega

theorem isMagnitude_decimalText {s : Nat} (hs : 0 < s) (power : Int) :
    IsMagnitude (decimalText s power) (s * 10 ^ power) := by
  unfold decimalText
  dsimp only
  split
  · exact isMagnitude_positional hs power
  · exact isMagnitude_scientific s power

theorem isMagnitude_positiveText (x : Double) (hpos : 0 < x.magnitude) :
    IsMagnitude (positiveText x) (shortestValue .even x) := by
  unfold positiveText shortestValue
  exact isMagnitude_decimalText (shortest_pos .even x hpos) (shortest .even x).2

/-- What is read in the text of a number. -/
def writtenMagnitude (x : Double) : ℚ :=
  if x.magnitude = 0 then 0 else shortestValue .even x

/-- **The text of a magnitude is worth it:** zero is written in its own way, and all others by their
shortest form. -/
theorem isMagnitude_writtenMagnitude (x : Double) :
    IsMagnitude (if x.magnitude = 0 then ['0', '.', '0'] else positiveText x)
      (writtenMagnitude x) := by
  unfold writtenMagnitude
  by_cases hzero : x.magnitude = 0
  · rw [if_pos hzero, if_pos hzero]
    refine isMagnitude_of_parts isWhole_zero (.present ['0'] isWhole_zero.toIsDigits) .absent ?_
    simp [valueOfDigits, digitValue]
  · rw [if_neg hzero, if_neg hzero]
    exact isMagnitude_positiveText x (Nat.pos_of_ne_zero hzero)

/-- The characters that a finite number is written with: its sign, and the text of its magnitude. -/
theorem floatText_toList (x : Double) (hfinite : x.magnitude < Format.double.infinity) :
    (floatText x).toList = (if x.isNegative then ['-'] else []) ++
      if x.magnitude = 0 then ['0', '.', '0'] else positiveText x := by
  -- neither of the words for what is not finite is written
  have hnumber : (x.isNaN || x.isInfinite) = false := by
    simp only [Binary.isNaN, Binary.isInfinite, Bool.or_eq_false_iff, decide_eq_false_iff_not]
    omega
  unfold floatText
  rw [hnumber]
  by_cases hzero : x.magnitude = 0
  · rw [if_pos hzero, if_pos hzero]
    cases x.isNegative <;> rfl
  · rw [if_neg hzero, if_neg hzero]
    change ((if x.isNegative then "-" else "") ++ String.ofList (positiveText x)).toList = _
    rw [String.toList_append, String.toList_ofList]
    congr 1
    cases x.isNegative <;> rfl

/-- **A floating-point number is written as its shortest form.** -/
theorem exists_numeral_of_floatText (x : Double) (hfinite : x.magnitude < Format.double.infinity) :
    ∃ n : Numeral, Writes (floatText x).toList (.value (.number n)) ∧
      n.isNegative = x.isNegative ∧ n.magnitude = writtenMagnitude x := by
  obtain ⟨n, hsign, hvalue, hunsigned⟩ := isMagnitude_writtenMagnitude x x.isNegative
  refine ⟨n, ?_, hsign, hvalue⟩
  rw [floatText_toList x hfinite, ← hsign]
  exact writes_number hunsigned

end QueryGateway.Json
