import Mathlib.Algebra.Order.Field.Rat
import Mathlib.Tactic.FieldSimp
import Mathlib.Tactic.Linarith
import Mathlib.Tactic.LinearCombination
import Mathlib.Tactic.Positivity
import Mathlib.Tactic.Ring
import QueryGateway.Number.Shortest

/-!
# Rounding

What rounding to a format does to a number. A pattern stands for a count of units
(`Format.unitsOf`), and `Format.IsPattern` says for which: a shift and a significand behind it, the
carry into the next power of two included. `roundRatio_spec` takes the rounding of a quotient apart
once: the pattern of a rounded significand, cut off at infinity.

Three facts about the rounding of a quotient follow from it: its distance (`abs_value_sub_le`), that
numbers with a short significand are kept (`value_roundRatio_of_lt`), and that the quotient lies in
the rounding interval of the number that it is rounded to (`mem_interval_of_roundRatio`).
-/

namespace QueryGateway.Number

/-! ### Quotients -/

/-- **A quotient rounded to the nearest natural,** a half to the even one. The bounds are doubled,
so that halves are told without fractions. -/
structure IsRounded (num den q : Nat) : Prop where
  le : 2 * num ≤ 2 * (q * den) + den
  ge : 2 * (q * den) ≤ 2 * num + den
  even : 2 * num = 2 * (q * den) + den ∨ 2 * (q * den) = 2 * num + den → q % 2 = 0

/-- The quotient with its last digit rounded is the nearest one, and the even one of two. -/
theorem isRounded_roundQuotient (num : Nat) {den : Nat} (hden : 0 < den) :
    IsRounded num den (roundQuotient num den) := by
  have hnum : num / den * den + num % den = num := Nat.div_add_mod' num den
  have hrest := Nat.mod_lt num hden
  unfold roundQuotient
  dsimp only
  split
  · -- below a half the quotient stays, above it the next one is nearer
    exact ⟨by omega, by omega, by omega⟩
  split
  · refine ⟨?_, ?_, ?_⟩ <;> rw [Nat.add_mul, Nat.one_mul] <;> omega
  · -- a half, where the parity of the quotient decides
    obtain hparity | hparity := Nat.mod_two_eq_zero_or_one (num / den)
    · rw [hparity, Nat.add_zero]
      exact ⟨by omega, by omega, fun _ => hparity⟩
    · rw [hparity]
      refine ⟨?_, ?_, fun _ => by omega⟩ <;> rw [Nat.add_mul, Nat.one_mul] <;> omega

namespace IsRounded

variable {num den q : Nat}

theorem le_of_mul_le (h : IsRounded num den q) (hden : 0 < den) {a : Nat} (ha : a * den ≤ num) :
    a ≤ q := by
  by_contra hlt
  have hmul : (q + 1) * den ≤ a * den := Nat.mul_le_mul_right den (by omega)
  rw [Nat.add_mul, Nat.one_mul] at hmul
  have hle := h.le
  omega

theorem le_of_le_mul (h : IsRounded num den q) (hden : 0 < den) {b : Nat} (hb : num ≤ b * den) :
    q ≤ b := by
  by_contra hlt
  have hmul : (b + 1) * den ≤ q * den := Nat.mul_le_mul_right den (by omega)
  rw [Nat.add_mul, Nat.one_mul] at hmul
  have hge := h.ge
  omega

/-- A natural is not rounded. -/
theorem eq_of_eq_mul (h : IsRounded num den q) (hden : 0 < den) {a : Nat} (ha : num = a * den) :
    q = a :=
  Nat.le_antisymm (h.le_of_le_mul hden ha.le) (h.le_of_mul_le hden ha.ge)

end IsRounded

/-! ### Patterns -/

namespace Format

variable {f : Format}

/-- The formats with room for a leading and another digit, and for two kinds of exponents. -/
structure IsProper (f : Format) : Prop where
  precision : 2 ≤ f.precision
  exponentBits : 2 ≤ f.exponentBits

theorem isProper_double : double.IsProper :=
  ⟨by decide, by decide⟩

theorem hidden_pos (f : Format) : 0 < f.hidden :=
  Nat.pow_pos (by decide)

theorem IsProper.two_mul_hidden (hf : f.IsProper) : 2 * f.hidden = 2 ^ f.precision := by
  have hp : f.precision - 1 + 1 = f.precision := by
    have := hf.precision
    omega
  rw [hidden, Nat.pow_eq, ← Nat.pow_succ', Nat.succ_eq_add_one, hp]

theorem IsProper.hidden_even (hf : f.IsProper) : f.hidden % 2 = 0 := by
  have hp : f.precision - 1 = f.precision - 2 + 1 := by
    have := hf.precision
    omega
  rw [hidden, Nat.pow_eq, hp, Nat.pow_succ, Nat.mul_mod_left]

/-- **The units of a pattern:** how many of the smallest positive number it counts. Below twice the
hidden bit the pattern is the count itself. -/
def unitsOf (f : Format) (m : Nat) : Nat :=
  (m - (m / f.hidden - 1) * f.hidden) * 2 ^ (m / f.hidden - 1)

/-- **The pattern of a significand behind a shift.** A significand may carry: rounded up to twice
the hidden bit, it is the pattern of the next power of two. -/
structure IsPattern (f : Format) (m shift q : Nat) : Prop where
  eq : m = shift * f.hidden + q
  le : q ≤ 2 * f.hidden
  normal : shift = 0 ∨ f.hidden ≤ q

namespace IsPattern

variable {m shift q : Nat}

/-- The shift of a pattern is told by its magnitude, as long as the significand does not carry into
the exponent. -/
theorem div_hidden (h : f.IsPattern m shift q) (hq : q < 2 * f.hidden) :
    m / f.hidden - 1 = shift := by
  have hpos := f.hidden_pos
  have hmul : (shift + 1) * f.hidden = shift * f.hidden + f.hidden := Nat.succ_mul _ _
  -- without the hidden digit the shift is zero, and with it the quotient is one more than the shift
  by_cases hsmall : q < f.hidden
  · obtain rfl : shift = 0 := h.normal.resolve_right (by omega)
    rw [h.eq, Nat.zero_mul, Nat.zero_add, Nat.div_eq_of_lt hsmall]
  · have hdiv : m / f.hidden = shift + 1 := by
      refine Nat.div_eq_of_lt_le ?_ ?_
      · rw [hmul, h.eq]
        omega
      · rw [Nat.succ_mul, hmul, h.eq]
        omega
    rw [hdiv, Nat.add_sub_cancel]

theorem div_hidden_of_carry (h : f.IsPattern m shift q) (hq : q = 2 * f.hidden) :
    m / f.hidden - 1 = shift + 1 := by
  have hm : m = (shift + 2) * f.hidden := by
    rw [h.eq, hq, Nat.add_mul]
  rw [hm, Nat.mul_div_cancel _ f.hidden_pos]
  rfl

/-- **The units of a pattern** are its significand, shifted. -/
theorem unitsOf_eq (h : f.IsPattern m shift q) : f.unitsOf m = q * 2 ^ shift := by
  unfold unitsOf
  obtain hq | hq := Nat.lt_or_eq_of_le h.le
  · rw [h.div_hidden hq, h.eq, Nat.add_sub_cancel_left]
  · have hsig : m - (shift + 1) * f.hidden = f.hidden := by
      rw [h.eq, hq, Nat.add_mul shift 1, Nat.one_mul]
      omega
    rw [h.div_hidden_of_carry hq, hsig, hq, Nat.pow_succ]
    ring

end IsPattern

/-! ### Rounding a quotient -/

/-- **A quotient rounded to a shift and a significand.** The shift leaves as many digits as the
format has, unless the number is too small for that. -/
structure IsRoundedTo (f : Format) (num den shift q : Nat) : Prop where
  rounded : IsRounded (num * 2 ^ f.unitExponent) (den * 2 ^ shift) q
  le : num * 2 ^ f.unitExponent ≤ 2 * f.hidden * (den * 2 ^ shift)
  normal : shift = 0 ∨ f.hidden * (den * 2 ^ shift) ≤ num * 2 ^ f.unitExponent

theorem IsRoundedTo.isPattern {num den shift q : Nat} (h : f.IsRoundedTo num den shift q)
    (hden : 0 < den) : f.IsPattern (shift * f.hidden + q) shift q where
  eq := rfl
  le := h.rounded.le_of_le_mul (Nat.mul_pos hden (Nat.two_pow_pos _)) h.le
  normal := h.normal.imp_right (h.rounded.le_of_mul_le (Nat.mul_pos hden (Nat.two_pow_pos _)))

/-- **What rounding a quotient does:** the shift is what the logarithm says is too much for the
precision, and the quotient is rounded at that digit. What is too great becomes infinity. -/
theorem roundRatio_spec (hf : f.IsProper) (num : Nat) {den : Nat} (hden : 0 < den) :
    ∃ shift q, f.IsRoundedTo num den shift q ∧
      f.roundRatio num den = min f.infinity (shift * f.hidden + q) := by
  have hp := hf.precision
  refine ⟨(num * 2 ^ f.unitExponent / den).log2 - (f.precision - 1), _, ⟨?_, ?_, ?_⟩, rfl⟩
  · exact isRounded_roundQuotient _ (Nat.mul_pos hden (Nat.two_pow_pos _))
  · -- the quotient has no more digits than its logarithm says
    generalize num * 2 ^ f.unitExponent = scaled
    have hlt : scaled / den < 2 ^ ((scaled / den).log2 + 1) := Nat.lt_log2_self
    rw [Nat.div_lt_iff_lt_mul hden] at hlt
    rw [hf.two_mul_hidden]
    calc scaled ≤ 2 ^ ((scaled / den).log2 + 1) * den := hlt.le
      _ ≤ 2 ^ (f.precision + ((scaled / den).log2 - (f.precision - 1))) * den :=
        Nat.mul_le_mul_right den (Nat.pow_le_pow_right (by decide) (by omega))
      _ = _ := by rw [Nat.pow_add]; ring
  · -- if there is a shift, the quotient has all its digits, so the leading one stays
    generalize num * 2 ^ f.unitExponent = scaled
    by_cases hsmall : (scaled / den).log2 ≤ f.precision - 1
    · exact .inl (by omega)
    · refine .inr ?_
      have hne : scaled / den ≠ 0 := by
        intro hzero
        rw [hzero, Nat.log2_zero] at hsmall
        omega
      -- the logarithm is exact for what it is the logarithm of
      have hge : 2 ^ (scaled / den).log2 ≤ scaled / den := Nat.log2_self_le hne
      rw [Nat.le_div_iff_mul_le hden] at hge
      calc f.hidden * (den * 2 ^ ((scaled / den).log2 - (f.precision - 1)))
          = 2 ^ (f.precision - 1 + ((scaled / den).log2 - (f.precision - 1))) * den := by
            rw [hidden, Nat.pow_eq, Nat.pow_add]; ring
        _ = 2 ^ (scaled / den).log2 * den := by
            rw [Nat.add_sub_cancel' (by omega)]
        _ ≤ scaled := hge

/-- **The number of a pattern,** as a rational. -/
def value (f : Format) (m : Nat) : ℚ :=
  f.unitsOf m / 2 ^ f.unitExponent

theorem value_nonneg (f : Format) (m : Nat) : 0 ≤ f.value m := by
  unfold value
  positivity

section

variable {num den : Nat}

/-- A rounding that stays finite is a pattern. -/
theorem exists_isRoundedTo (hf : f.IsProper) (hden : 0 < den)
    (hfinite : f.roundRatio num den < f.infinity) :
    ∃ shift q, f.IsRoundedTo num den shift q ∧
      f.IsPattern (f.roundRatio num den) shift q := by
  obtain ⟨shift, q, h, hround⟩ := roundRatio_spec hf num hden
  refine ⟨shift, q, h, ?_⟩
  have hmin : f.roundRatio num den = shift * f.hidden + q := by omega
  rw [hmin]
  exact h.isPattern hden

/-- **A number that is not beyond the greatest is not rounded to infinity.** -/
theorem roundRatio_lt_infinity (hf : f.IsProper) (hden : 0 < den)
    (h : num * 2 ^ f.unitExponent ≤
      (2 * f.hidden - 1) * (den * 2 ^ (2 ^ f.exponentBits - 3))) :
    f.roundRatio num den < f.infinity := by
  obtain ⟨shift, q, hrounded, hround⟩ := roundRatio_spec hf num hden
  have hpos := f.hidden_pos
  have hexp : 4 ≤ 2 ^ f.exponentBits :=
    (Nat.pow_le_pow_right (by decide) hf.exponentBits : 2 ^ 2 ≤ 2 ^ f.exponentBits)
  set top := 2 ^ f.exponentBits - 3 with htop
  have hinf : f.infinity = (top + 2) * f.hidden := by
    rw [infinity, Nat.pow_eq]
    congr 1
    omega
  -- what is rounded may carry, but by no more than one digit
  have hle := hrounded.isPattern hden
  -- the shift is at most that of the greatest number
  -- a greater shift would mean a number of twice the size of the greatest one at least
  have hshift : shift ≤ top := by
    by_contra hlt
    have hnormal := hrounded.normal.resolve_left (by omega)
    have hpow : 2 * 2 ^ top ≤ 2 ^ shift := by
      rw [← Nat.pow_succ']
      exact Nat.pow_le_pow_right (by decide) (by omega)
    have hlarge : f.hidden * (den * (2 * 2 ^ top)) ≤ (2 * f.hidden - 1) * (den * 2 ^ top) :=
      (Nat.mul_le_mul_left _ (Nat.mul_le_mul_left den hpow)).trans (hnormal.trans h)
    have hstep : f.hidden * (den * (2 * 2 ^ top)) = 2 * f.hidden * (den * 2 ^ top) := by ring
    rw [hstep] at hlarge
    have := Nat.le_of_mul_le_mul_right hlarge (Nat.mul_pos hden (Nat.two_pow_pos _))
    omega
  rw [hround, hinf]
  refine Nat.lt_of_le_of_lt (Nat.min_le_right _ _) ?_
  -- with a smaller shift there is room for a carry, and with the greatest one the rounding does not
  -- carry
  obtain hlt | rfl := Nat.lt_or_eq_of_le hshift
  · calc shift * f.hidden + q ≤ shift * f.hidden + 2 * f.hidden := by
          have := hle.le
          omega
      _ = (shift + 2) * f.hidden := by ring
      _ < (top + 2) * f.hidden := Nat.mul_lt_mul_of_pos_right (by omega) hpos
  · have hq : q ≤ 2 * f.hidden - 1 :=
      hrounded.rounded.le_of_le_mul (Nat.mul_pos hden (Nat.two_pow_pos _)) h
    rw [Nat.add_mul]
    omega

/-- **The distance of a rounded number:** half of the last digit that is kept. That digit is
relative to the number, unless the number is so small that the last digit is the smallest there
is. -/
theorem abs_value_sub_le (hf : f.IsProper) (hden : 0 < den)
    (hfinite : f.roundRatio num den < f.infinity) :
    |f.value (f.roundRatio num den) - num / den| ≤
      max ((num / den : ℚ) / 2 ^ f.precision) (1 / 2 ^ (f.unitExponent + 1)) := by
  obtain ⟨shift, q, h, hpattern⟩ := exists_isRoundedTo hf hden hfinite
  have hden' : (0 : ℚ) < den := by exact_mod_cast hden
  have hunit : (0 : ℚ) < 2 ^ f.unitExponent := by positivity
  have hle : (2 * (num * 2 ^ f.unitExponent) : ℚ) ≤
      2 * (q * (den * 2 ^ shift)) + den * 2 ^ shift := by exact_mod_cast h.rounded.le
  have hge : (2 * (q * (den * 2 ^ shift)) : ℚ) ≤
      2 * (num * 2 ^ f.unitExponent) + den * 2 ^ shift := by exact_mod_cast h.rounded.ge
  -- half of the last digit, by what rounding means
  have hhalf : |f.value (f.roundRatio num den) - num / den| ≤
      (2 : ℚ) ^ shift / 2 ^ (f.unitExponent + 1) := by
    have hdiff : f.value (f.roundRatio num den) - num / den =
        (2 * (q * (den * 2 ^ shift)) - 2 * (num * 2 ^ f.unitExponent)) /
          (den * 2 ^ (f.unitExponent + 1)) := by
      rw [value, hpattern.unitsOf_eq, pow_succ]
      push_cast
      field_simp
    have hbound : (2 : ℚ) ^ shift / 2 ^ (f.unitExponent + 1) =
        den * 2 ^ shift / (den * 2 ^ (f.unitExponent + 1)) := by
      field_simp
    rw [hdiff, hbound, abs_div, abs_of_pos (by positivity : (0 : ℚ) <
      den * 2 ^ (f.unitExponent + 1))]
    gcongr
    rw [abs_le]
    constructor <;> linarith
  refine hhalf.trans ?_
  -- with no shift the last digit is the smallest unit
  obtain rfl | hnormal := h.normal
  · exact le_max_of_le_right (by rw [pow_zero])
  · -- with one, the number has all its digits, and the last is as small a part of it as the
    -- precision says
    refine le_max_of_le_left ?_
    have hnormal' : (f.hidden * (den * 2 ^ shift) : ℚ) ≤ num * 2 ^ f.unitExponent := by
      exact_mod_cast hnormal
    have htwo : (2 : ℚ) ^ f.precision = 2 * f.hidden := by exact_mod_cast hf.two_mul_hidden.symm
    have hhidden : (0 : ℚ) < f.hidden := by exact_mod_cast f.hidden_pos
    rw [htwo, pow_succ, div_div, div_le_div_iff₀ (by positivity) (by positivity)]
    linarith

/-- **Numbers with a short significand are kept,** since what the shift takes away is zeros. -/
theorem value_roundRatio_of_lt (hf : f.IsProper) {c j : Nat} (hc : c < 2 ^ f.precision)
    (hfinite : f.roundRatio (c * 2 ^ j) 1 < f.infinity) :
    f.value (f.roundRatio (c * 2 ^ j) 1) = c * 2 ^ j := by
  obtain ⟨shift, q, h, hpattern⟩ := exists_isRoundedTo hf Nat.one_pos hfinite
  -- the shift takes no digit away
  have hshift : shift ≤ j + f.unitExponent := by
    obtain rfl | hnormal := h.normal
    · exact Nat.zero_le _
    · have hlt : f.hidden * 2 ^ shift < f.hidden * 2 ^ (j + f.unitExponent + 1) :=
        calc f.hidden * 2 ^ shift ≤ c * 2 ^ j * 2 ^ f.unitExponent := by
              rwa [Nat.one_mul] at hnormal
          _ = c * 2 ^ (j + f.unitExponent) := by rw [Nat.mul_assoc, ← Nat.pow_add]
          _ < 2 ^ f.precision * 2 ^ (j + f.unitExponent) :=
              Nat.mul_lt_mul_of_pos_right hc (Nat.two_pow_pos _)
          _ = f.hidden * 2 ^ (j + f.unitExponent + 1) := by
              rw [← hf.two_mul_hidden, Nat.pow_succ]; ring
      have hpow := Nat.lt_of_mul_lt_mul_left hlt
      rw [Nat.pow_lt_pow_iff_right (by decide)] at hpow
      omega
  -- so the quotient is exact, and what is exact is not rounded
  have hq : q = c * 2 ^ (j + f.unitExponent - shift) := by
    refine h.rounded.eq_of_eq_mul (by rw [Nat.one_mul]; exact Nat.two_pow_pos _) ?_
    rw [Nat.one_mul, Nat.mul_assoc, Nat.mul_assoc, ← Nat.pow_add, ← Nat.pow_add,
      Nat.sub_add_cancel hshift]
  have hunits : f.unitsOf (f.roundRatio (c * 2 ^ j) 1) = c * 2 ^ j * 2 ^ f.unitExponent := by
    rw [hpattern.unitsOf_eq, hq, Nat.mul_assoc, Nat.mul_assoc, ← Nat.pow_add, ← Nat.pow_add,
      Nat.sub_add_cancel hshift]
  rw [value, hunits]
  push_cast
  field_simp

end

end Format

/-! ### Numbers -/

section

variable {f : Format}

theorem infinity_lt_signBit (hf : f.IsProper) : f.infinity < f.signBit := by
  have hwidth : f.width - 1 = f.exponentBits + (f.precision - 1) := by
    have := hf.precision
    unfold Format.width
    omega
  rw [Format.infinity, Format.signBit, hwidth, Nat.pow_eq, Nat.pow_eq, Nat.pow_add]
  exact Nat.mul_lt_mul_of_pos_right (Nat.sub_lt (Nat.two_pow_pos _) Nat.one_pos) f.hidden_pos

theorem signBit_mul_two (hf : f.IsProper) : 2 * f.signBit = 2 ^ f.width := by
  have hwidth : f.width - 1 + 1 = f.width := by
    have := hf.precision
    unfold Format.width
    omega
  rw [Format.signBit, Nat.pow_eq, ← Nat.pow_succ', Nat.succ_eq_add_one, hwidth]

namespace Binary

theorem toNat_bits_ofMagnitude (hf : f.IsProper) {m : Nat} (hm : m < f.signBit) (b : Bool) :
    (ofMagnitude f b m).bits.toNat = if b then f.signBit + m else m := by
  have hsign := signBit_mul_two hf
  rw [ofMagnitude, BitVec.toNat_ofNat, Nat.mod_eq_of_lt]
  split <;> omega

theorem magnitude_ofMagnitude (hf : f.IsProper) {m : Nat} (hm : m < f.signBit) (b : Bool) :
    (ofMagnitude f b m).magnitude = m := by
  rw [magnitude, toNat_bits_ofMagnitude hf hm]
  cases b with
  | true => rw [if_pos rfl, Nat.add_mod_left, Nat.mod_eq_of_lt hm]
  | false => exact Nat.mod_eq_of_lt hm

theorem isNegative_ofMagnitude (hf : f.IsProper) {m : Nat} (hm : m < f.signBit) (b : Bool) :
    (ofMagnitude f b m).isNegative = b := by
  rw [isNegative, toNat_bits_ofMagnitude hf hm]
  cases b with
  | true => simp
  | false => simp [hm]

theorem units_eq (x : Binary f) : x.units = f.unitsOf x.magnitude := rfl

/-- **The number without its sign.** -/
def value (x : Binary f) : ℚ :=
  f.value x.magnitude

end Binary

end

/-! ### Rounding intervals -/

namespace RoundingInterval

/-- **The numbers of an interval,** in the same measure as its ends. The ends belong to it only
where the interval is closed. -/
def Mem (i : RoundingInterval) (r : ℚ) : Prop :=
  i.low ≤ r ∧ r ≤ i.high ∧ (i.closed = false → i.low ≠ r ∧ r ≠ i.high)

theorem contains_iff {i : RoundingInterval} {n : Nat} : i.contains n = true ↔ i.Mem n := by
  unfold contains Mem
  cases i.closed with
  | true => simp
  | false => simp [lt_iff_le_and_ne]; tauto

theorem mem_scale_iff {i : RoundingInterval} {k : Nat} (hk : 0 < k) {r : ℚ} :
    (i.scale k).Mem (r * k) ↔ i.Mem r := by
  have hk' : (0 : ℚ) < k := by exact_mod_cast hk
  simp [Mem, scale, hk', hk'.ne']

end RoundingInterval

section

variable {f : Format} {x : Binary f}

namespace Binary

theorem shift_eq {shift q : Nat} (h : f.IsPattern x.magnitude shift q) (hq : q < 2 * f.hidden) :
    x.shift = shift ∧ x.significand = q := by
  have hshift : x.shift = shift := h.div_hidden hq
  refine ⟨hshift, ?_⟩
  rw [significand, hshift, h.eq, Nat.add_sub_cancel_left]

theorem shift_eq_of_carry {shift q : Nat} (h : f.IsPattern x.magnitude shift q)
    (hq : q = 2 * f.hidden) : x.shift = shift + 1 ∧ x.significand = f.hidden := by
  have hshift : x.shift = shift + 1 := h.div_hidden_of_carry hq
  refine ⟨hshift, ?_⟩
  rw [significand, hshift, h.eq, hq, Nat.add_mul shift 1, Nat.one_mul]
  omega

/-- What lies in the interval of a number, counted in its last digit: what is at most a half away
from its significand, or a quarter below the least significand. -/
theorem mem_interval {t : ℚ} (ht : 0 ≤ t) (hle : 2 * t ≤ 2 * x.significand + 1)
    (hge : 2 * (x.significand : ℚ) ≤ 2 * t + 1)
    (hleast : x.significand = f.hidden → 0 < x.shift → 4 * (x.significand : ℚ) ≤ 4 * t + 1)
    (htie : x.significand % 2 = 1 →
      2 * t ≠ 2 * x.significand + 1 ∧ 2 * (x.significand : ℚ) ≠ 2 * t + 1)
    (heven : f.hidden % 2 = 0) : x.interval.Mem (4 * 2 ^ x.shift * t) := by
  have hpow : (0 : ℚ) < 2 ^ x.shift := by positivity
  -- the lower end, without the subtraction of naturals
  -- below the least significand of an exponent the numbers are twice as dense, so the interval
  -- reaches only half as far
  obtain ⟨below, hbelow, hlow, hlow_ne⟩ : ∃ below : Nat,
      x.interval.low = (4 * x.significand - below) * 2 ^ x.shift ∧
      4 * (x.significand : ℚ) - below ≤ 4 * t ∧
      (x.significand % 2 = 1 → 4 * (x.significand : ℚ) - below ≠ 4 * t ∧
        below ≤ 4 * x.significand) := by
    by_cases hgap : x.significand = f.hidden ∧ 0 < x.shift
    · refine ⟨1, ?_, ?_, fun hodd => ?_⟩
      · simp [interval, hgap]
      · push_cast
        linarith [hleast hgap.1 hgap.2]
      · rw [hgap.1, heven] at hodd
        cases hodd
    · refine ⟨2, ?_, ?_, fun hodd => ⟨fun heq => (htie hodd).2 ?_, by omega⟩⟩
      · simp only [interval, Bool.and_eq_true, decide_eq_true_eq, if_neg hgap]
        rfl
      · push_cast
        linarith
      · push_cast at heq
        linarith
  -- the subtraction does not matter, since all numbers are nonnegative
  have hlow' : ((4 * x.significand - below : Nat) : ℚ) ≤ 4 * t := by
    obtain hle | hlt := Nat.le_total below (4 * x.significand)
    · rw [Nat.cast_sub hle]
      push_cast
      exact hlow
    · rw [Nat.sub_eq_zero_of_le hlt]
      push_cast
      linarith
  have hhigh : x.interval.high = (4 * x.significand + 2) * 2 ^ x.shift := rfl
  -- the ends in order, and for an odd significand that they are not taken
  refine ⟨?_, ?_, fun hclosed => ?_⟩
  · rw [hbelow, Nat.cast_mul, mul_right_comm]
    push_cast
    gcongr
  · rw [hhigh, mul_right_comm]
    push_cast
    gcongr
    linarith
  · -- only the interval of an odd significand leaves its ends out
    have hodd : x.significand % 2 = 1 := by
      have hclosed' : decide (x.significand % 2 = 0) = false := hclosed
      rw [decide_eq_false_iff_not] at hclosed'
      omega
    obtain ⟨hne, hsub⟩ := hlow_ne hodd
    rw [hbelow, hhigh, Nat.cast_mul, Nat.cast_mul, Nat.cast_sub hsub, mul_right_comm]
    push_cast
    refine ⟨fun heq => hne (mul_right_cancel₀ hpow.ne' heq), fun heq => (htie hodd).1 ?_⟩
    have := mul_right_cancel₀ hpow.ne' heq
    linarith

end Binary

/-- **A number that is rounded to so many of the last digit that is kept.** -/
structure IsNearest (f : Format) (t : ℚ) (shift q : Nat) : Prop where
  nonneg : 0 ≤ t
  le : 2 * t ≤ 2 * q + 1
  ge : 2 * (q : ℚ) ≤ 2 * t + 1
  even : 2 * t = 2 * q + 1 ∨ 2 * (q : ℚ) = 2 * t + 1 → q % 2 = 0
  least : 0 < shift → (f.hidden : ℚ) ≤ t

/-- A rounded quotient, counted in the last digit that is kept, is the nearest whole number.
Dividing by the digit turns the inequalities about the quotient into ones about the number. -/
theorem Format.IsRoundedTo.isNearest {num den shift q : Nat} (h : f.IsRoundedTo num den shift q)
    (hden : 0 < den) : IsNearest f (num * 2 ^ f.unitExponent / (den * 2 ^ shift)) shift q := by
  have hden' : (0 : ℚ) < den := by exact_mod_cast hden
  have hdigit : (0 : ℚ) < den * 2 ^ shift := by positivity
  have hle : (2 * (num * 2 ^ f.unitExponent) : ℚ) ≤
      2 * (q * (den * 2 ^ shift)) + den * 2 ^ shift := by exact_mod_cast h.rounded.le
  have hge : (2 * (q * (den * 2 ^ shift)) : ℚ) ≤
      2 * (num * 2 ^ f.unitExponent) + den * 2 ^ shift := by exact_mod_cast h.rounded.ge
  have hleast : 0 < shift → (f.hidden * (den * 2 ^ shift) : ℚ) ≤ num * 2 ^ f.unitExponent := by
    intro hpos
    exact_mod_cast h.normal.resolve_left hpos.ne'
  have heven : (2 * (num * 2 ^ f.unitExponent) : ℚ) =
        2 * (q * (den * 2 ^ shift)) + den * 2 ^ shift ∨
      (2 * (q * (den * 2 ^ shift)) : ℚ) =
        2 * (num * 2 ^ f.unitExponent) + den * 2 ^ shift → q % 2 = 0 :=
    -- a tie is rounded to the even one
    fun hor => h.rounded.even (by exact_mod_cast hor)
  -- all of this speaks of the number and of the digit
  have hscaled : (num * 2 ^ f.unitExponent : ℚ) =
      num * 2 ^ f.unitExponent / (den * 2 ^ shift) * (den * 2 ^ shift) := by
    rw [div_mul_cancel₀ _ hdigit.ne']
  have hnonneg : (0 : ℚ) ≤ num * 2 ^ f.unitExponent / (den * 2 ^ shift) := by positivity
  rw [hscaled] at hle hge hleast heven
  generalize (num * 2 ^ f.unitExponent / (den * 2 ^ shift) : ℚ) = t at *
  generalize (den * 2 ^ shift : ℚ) = digit at *
  -- each inequality, divided by the digit
  refine ⟨hnonneg, ?_, ?_, fun hor => heven (hor.imp (fun heq => ?_) fun heq => ?_), fun hpos => ?_⟩
  · refine le_of_mul_le_mul_right ?_ hdigit
    linarith
  · refine le_of_mul_le_mul_right ?_ hdigit
    linarith
  · linear_combination digit * heq
  · linear_combination digit * heq
  · exact le_of_mul_le_mul_right (hleast hpos) hdigit

namespace IsNearest

variable {t : ℚ} {shift q : Nat}

/-- A significand that does not carry is the quotient itself, and its interval is the one around
it. -/
theorem mem_interval (h : IsNearest f t shift q) (hf : f.IsProper)
    (hx : f.IsPattern x.magnitude shift q) (hq : q < 2 * f.hidden) :
    x.interval.Mem (4 * 2 ^ shift * t) := by
  obtain ⟨hshift, hsig⟩ := Binary.shift_eq hx hq
  obtain ⟨hnonneg, hle, hge, heven, hleast⟩ := h
  rw [← hshift]
  rw [← hsig] at hle hge heven
  refine Binary.mem_interval hnonneg hle hge (fun heq hpos => ?_) (fun hodd => ?_) hf.hidden_even
  · rw [heq]
    rw [hshift] at hpos
    linarith [hleast hpos]
  · -- an odd significand is not what a tie is rounded to, so the ends are not met
    refine ⟨fun heq => ?_, fun heq => ?_⟩
    · rw [heven (.inl heq)] at hodd
      cases hodd
    · rw [heven (.inr heq)] at hodd
      cases hodd

/-- With the carry the last digit is twice as large, and the significand is the least one. -/
theorem mem_interval_of_carry (h : IsNearest f t shift q) (hf : f.IsProper)
    (hx : f.IsPattern x.magnitude shift q) (hq : q = 2 * f.hidden) :
    x.interval.Mem (4 * 2 ^ shift * t) := by
  obtain ⟨hshift, hsig⟩ := Binary.shift_eq_of_carry hx hq
  obtain ⟨hnonneg, hle, hge, -, -⟩ := h
  -- counted in the greater digit, the quotient is half of what it was
  have hdigit : (4 * 2 ^ shift * t : ℚ) = 4 * 2 ^ x.shift * (t / 2) := by
    rw [hshift, pow_succ]
    ring
  rw [hdigit]
  rw [hq] at hle hge
  push_cast at hle hge
  refine Binary.mem_interval (by positivity) ?_ ?_ (fun _ _ => ?_) (fun hodd => ?_) hf.hidden_even
  · rw [hsig]
    linarith
  · rw [hsig]
    linarith
  · rw [hsig]
    linarith
  · -- the least significand is even
    rw [hsig, hf.hidden_even] at hodd
    cases hodd

end IsNearest

/-- **A quotient lies in the interval** of the number that it is rounded to. -/
theorem mem_interval_of_roundRatio (hf : f.IsProper) {num den : Nat} (hden : 0 < den)
    (hfinite : f.roundRatio num den < f.infinity)
    (hx : x.magnitude = f.roundRatio num den) :
    x.interval.Mem (4 * 2 ^ f.unitExponent * (num / den)) := by
  obtain ⟨shift, q, h, hpattern⟩ := Format.exists_isRoundedTo hf hden hfinite
  rw [← hx] at hpattern
  have hden' : (0 : ℚ) < den := by exact_mod_cast hden
  -- the quotient, counted in quarters of its last digit
  have hcount : (4 * 2 ^ f.unitExponent * (num / den) : ℚ) =
      4 * 2 ^ shift * (num * 2 ^ f.unitExponent / (den * 2 ^ shift)) := by
    field_simp
  rw [hcount]
  obtain hq | hq := Nat.lt_or_eq_of_le hpattern.le
  · exact (h.isNearest hden).mem_interval hf hpattern hq
  · exact (h.isNearest hden).mem_interval_of_carry hf hpattern hq

end

end QueryGateway.Number
