import QueryGateway.Json.Evaluation
import QueryGateway.Proofs.Number.Shortest

/-!
# Scaling by powers of ten

How far `scaled?` may be from `significand * 10 ^ exponent`. Each of its operations rounds once
(`Rounds`): to the nearest number, so that the error is half a digit in the last place, or half a
unit where digits run out. A product has three of these errors (`isNear_mul`), and so has each of
the divisions (`isNear_div`), of which there are four at most. `exists_scaled?` adds them up.

Where the significand and the power of ten are exact, the only rounding is that of the result
(`rounds_scaled?`).
-/

namespace QueryGateway.Json

open Number

/-! ### One rounding -/

/-- Half of the last digit of one in double precision. -/
def unitRoundoff : ℚ := 1 / 2 ^ Format.double.precision

/-- Half of the smallest positive number in double precision. -/
def halfUnit : ℚ := 1 / 2 ^ (Format.double.unitExponent + 1)

theorem unitRoundoff_pos : 0 < unitRoundoff := by
  unfold unitRoundoff
  positivity

theorem unitRoundoff_le : unitRoundoff ≤ 1 / 10 ^ 15 := by
  have hprecision : Format.double.precision = 53 := rfl
  rw [unitRoundoff, hprecision]
  norm_num

theorem unitRoundoff_le_thousandth : unitRoundoff ≤ 1 / 1000 :=
  unitRoundoff_le.trans (by norm_num)

theorem halfUnit_pos : 0 < halfUnit := by
  unfold halfUnit
  positivity

theorem halfUnit_le : halfUnit ≤ 1 / 2 := by
  unfold halfUnit
  have hpow : (2 : ℚ) ^ 1 ≤ 2 ^ (Format.double.unitExponent + 1) :=
    pow_le_pow_right₀ (by norm_num) (by omega)
  rw [pow_one] at hpow
  exact one_div_le_one_div_of_le (by norm_num) hpow

/-- The units of the greatest number in double precision. -/
def greatestUnits : Nat :=
  (2 * Format.double.hidden - 1) * Nat.pow 2 (Nat.pow 2 Format.double.exponentBits - 3)

/-- The greatest number in double precision. -/
def greatest : ℚ :=
  greatestUnits / 2 ^ Format.double.unitExponent

/-- **A number that a number is rounded to:** finite, near, and within the interval of what is
rounded to it. -/
structure Rounds (x : Double) (v : ℚ) : Prop where
  finite : x.magnitude < Format.double.infinity
  near : |x.value - v| ≤ max (v * unitRoundoff) halfUnit
  mem : x.interval.Mem (quarters .double * v)

theorem lt_signBit {m : Nat} (h : m < Format.double.infinity) : m < Format.double.signBit :=
  h.trans (infinity_lt_signBit Format.isProper_double)

theorem roundRatio_lt_of_le {num den : Nat} (hden : 0 < den) (h : (num / den : ℚ) ≤ greatest) :
    Format.double.roundRatio num den < Format.double.infinity := by
  have hden' : (0 : ℚ) < den := by exact_mod_cast hden
  refine Format.roundRatio_lt_infinity Format.isProper_double hden ?_
  rw [greatest, div_le_div_iff₀ hden' (by positivity)] at h
  calc num * 2 ^ Format.double.unitExponent ≤ greatestUnits * den := by exact_mod_cast h
    _ = (2 * Format.double.hidden - 1) * (den * 2 ^ (2 ^ Format.double.exponentBits - 3)) := by
        rw [greatestUnits, Nat.pow_eq, Nat.pow_eq, Nat.mul_assoc, Nat.mul_comm den]

/-- **The rounding of a quotient** that does not overflow: it is finite, off by half a unit of the
last place or of the smallest numbers, and the quotient lies in its interval. -/
theorem rounds_ofMagnitude (num : Nat) {den : Nat} (hden : 0 < den)
    (h : (num / den : ℚ) ≤ greatest) :
    Rounds (.ofMagnitude .double false (Format.double.roundRatio num den)) (num / den) := by
  have hfinite := roundRatio_lt_of_le hden h
  have hmagnitude :=
    Binary.magnitude_ofMagnitude Format.isProper_double (lt_signBit hfinite) false
  refine ⟨by rwa [hmagnitude], ?_, mem_interval_of_roundRatio Format.isProper_double hden hfinite
    hmagnitude⟩
  -- half a unit in the last place is half of two to the minus precision of the quotient
  have hnear := Format.abs_value_sub_le Format.isProper_double hden hfinite
  rwa [Binary.value, hmagnitude, unitRoundoff, halfUnit, mul_one_div]

/-! ### Operations -/

/-- A bound on numbers that are read, somewhat below the greatest number. Nothing is said of what
lies between the two. -/
def greatestRead : Nat := 17976 * Nat.pow 10 (greatestPower - 4)

theorem mul_le_greatest {n : Nat} (num : Nat) {den : Nat} (hden : 0 < den)
    (h : n * num * 2 ^ Format.double.unitExponent ≤ greatestUnits * den) :
    (n * (num / den) : ℚ) ≤ greatest := by
  have hden' : (0 : ℚ) < den := by exact_mod_cast hden
  have hcast : (n * num * 2 ^ Format.double.unitExponent : ℚ) ≤ greatestUnits * den := by
    exact_mod_cast h
  rw [greatest, ← mul_div_assoc, div_le_div_iff₀ hden' (by positivity)]
  exact hcast

theorem greatestRead_le : (greatestRead * (1000001 / 1000000) : ℚ) ≤ greatest :=
  mul_le_greatest 1000001 (by decide) (Nat.le_of_ble_eq_true (by decide +kernel))

theorem le_greatest {v : ℚ} (h : v ≤ greatestRead) : v ≤ greatest := by
  have hpos : (0 : ℚ) ≤ greatestRead := Nat.cast_nonneg _
  linarith [greatestRead_le]

theorem natCast_le_greatest {n : Nat} (h : n ≤ greatestRead) : (n : ℚ) ≤ greatest :=
  le_greatest (by exact_mod_cast h)

theorem two_pow_le_greatestRead : Nat.pow 2 66 ≤ greatestRead :=
  Nat.le_of_ble_eq_true (by decide +kernel)

theorem pow_le_of_le {b k m n : Nat} (hb : 0 < b) (hk : k ≤ m) (h : Nat.pow b m ≤ n) :
    b ^ k ≤ n :=
  (Nat.pow_le_pow_right hb hk).trans h

theorem ten_pow_le_greatestRead {k : Nat} (h : k ≤ greatestPower) : 10 ^ k ≤ greatestRead :=
  pow_le_of_le (by decide) h (Nat.le_of_ble_eq_true (by decide +kernel))

theorem rounds_ofInt {n : Nat} (h : n ≤ greatestRead) : Rounds (.ofInt .double n) n := by
  have hrounds := rounds_ofMagnitude n Nat.one_pos
    (by rw [Nat.cast_one, div_one]; exact natCast_le_greatest h)
  rwa [Nat.cast_one, div_one] at hrounds

theorem rounds_powerOfTen {k : Nat} (h : k ≤ greatestPower) :
    Rounds (powerOfTen k) (10 ^ k) := by
  have hrounds := rounds_ofMagnitude (10 ^ k) Nat.one_pos
    (by rw [Nat.cast_one, div_one]; exact natCast_le_greatest (ten_pow_le_greatestRead h))
  rw [Nat.cast_one, div_one] at hrounds
  exact_mod_cast hrounds

theorem rounds_multiply {x y : Double} (h : x.value * y.value ≤ greatest) :
    Rounds (multiply x y) (x.value * y.value) := by
  have hvalue : ((x.units * y.units : Nat) : ℚ) /
      (Nat.pow 2 (2 * Format.double.unitExponent) : Nat) = x.value * y.value := by
    simp only [Binary.value, Format.value, ← Binary.units_eq, Nat.pow_eq, Nat.cast_mul,
      Nat.cast_pow, Nat.cast_ofNat, two_mul, pow_add]
    field_simp
  rw [← hvalue] at h ⊢
  exact rounds_ofMagnitude _ (natPow_pos (by decide) _) h

/-- Dividing rounds the quotient. The divisor must not be zero, for which a division gives
infinity. -/
theorem rounds_divide {x y : Double} (hy : 0 < y.value) (h : x.value / y.value ≤ greatest) :
    Rounds (divide x y) (x.value / y.value) := by
  -- the division is one of the units that the numbers have
  have hunits : 0 < y.units := by
    refine Nat.pos_of_ne_zero fun hzero => hy.ne' ?_
    rw [Binary.value, Format.value, ← Binary.units_eq, hzero, Nat.cast_zero, zero_div]
  have hvalue : (x.units : ℚ) / y.units = x.value / y.value := by
    simp only [Binary.value, Format.value, ← Binary.units_eq]
    field_simp
  rw [← hvalue] at h ⊢
  exact rounds_ofMagnitude _ hunits h

/-! ### Errors that add up -/

/-- **What is left of a number** after some roundings: up to so many half digits, and a unit. -/
def IsNear (c : Nat) (x v : ℚ) : Prop :=
  |x - v| ≤ v * (c * unitRoundoff) + 2 * halfUnit

section

variable {c d : Nat} {x y v w : ℚ}

theorem IsNear.mono (h : IsNear c x v) (hcd : c ≤ d) (hv : 0 ≤ v) : IsNear d x v := by
  have hcd' : (c : ℚ) ≤ d := by exact_mod_cast hcd
  have hpos := unitRoundoff_pos
  refine le_trans (h : _ ≤ _) ?_
  gcongr

/-- A rounded number of one or more is off by a part of it. -/
theorem Rounds.abs_sub_le {x : Double} (h : Rounds x v) (hv : 1 ≤ v) :
    |x.value - v| ≤ v * unitRoundoff := by
  have hhalf : halfUnit ≤ unitRoundoff := by
    unfold halfUnit unitRoundoff
    refine one_div_le_one_div_of_le (by positivity) (pow_le_pow_right₀ (by norm_num) ?_)
    exact Nat.le_of_ble_eq_true rfl
  refine h.near.trans (max_le le_rfl (hhalf.trans ?_))
  exact le_mul_of_one_le_left unitRoundoff_pos.le hv

/-- The error of a rounding is at most the sum of both bounds. -/
theorem Rounds.abs_sub_le_add {x : Double} (h : Rounds x v) (hv : 0 ≤ v) :
    |x.value - v| ≤ v * unitRoundoff + halfUnit := by
  refine h.near.trans (max_le ?_ ?_)
  · exact le_add_of_nonneg_right halfUnit_pos.le
  · exact le_add_of_nonneg_left (mul_nonneg hv unitRoundoff_pos.le)

/-- **The errors of a product** of two rounded numbers: one from each factor, one from the rounding
of the product, and one more that takes in what is left over. -/
theorem isNear_mul {r : ℚ} (hv : 0 ≤ v) (hw : 0 ≤ w) (hx : |x - v| ≤ v * unitRoundoff)
    (hy : |y - w| ≤ w * unitRoundoff) (hr : |r - x * y| ≤ x * y * unitRoundoff + halfUnit) :
    IsNear 4 r (v * w) := by
  -- the unit roundoff and the smallest half unit count only by these bounds
  have hu := unitRoundoff_pos
  have hu' := unitRoundoff_le_thousandth
  have hh := halfUnit_pos
  unfold IsNear
  generalize unitRoundoff = u at *
  generalize halfUnit = h at *
  have hvw : 0 ≤ v * w := mul_nonneg hv hw
  have hvwu : v * w * u ≤ v * w * (1 / 1000) := mul_le_mul_of_nonneg_left hu' hvw
  -- the product of the rounded factors
  have hproduct : |x * y - v * w| ≤ v * w * (5 / 2 * u) :=
    calc |x * y - v * w| = |(x - v) * w + x * (y - w)| := congrArg abs (by ring)
      _ ≤ |x - v| * w + |x| * |y - w| := by
          rw [← abs_mul x, ← abs_of_nonneg hw, ← abs_mul, abs_of_nonneg hw]
          exact abs_add_le _ _
      -- each error is weighed by the other factor, and the rounded factor is hardly more than the
      -- exact one
      _ ≤ v * u * w + 3 / 2 * v * (w * u) := by
          have hx' : |x| ≤ 3 / 2 * v := by
            have hvu := mul_le_mul_of_nonneg_left hu' hv
            have := abs_le.1 hx
            rw [abs_le]
            constructor <;> linarith
          exact add_le_add (mul_le_mul_of_nonneg_right hx hw)
            (mul_le_mul hx' hy (abs_nonneg _) (by linarith))
      _ = v * w * (5 / 2 * u) := by ring
  have hrough : x * y ≤ 11 / 10 * (v * w) := by
    have := (abs_le.1 hproduct).2
    linarith
  -- the last rounding is relative to the product of the rounded factors, so that is bounded first
  have hxyu : x * y * u ≤ 11 / 10 * (v * w) * u := mul_le_mul_of_nonneg_right hrough hu.le
  calc |r - v * w| ≤ |r - x * y| + |x * y - v * w| := abs_sub_le _ _ _
    _ ≤ x * y * u + h + v * w * (5 / 2 * u) := add_le_add hr hproduct
    _ ≤ v * w * ((4 : Nat) * u) + 2 * h := by
        have := mul_nonneg hvw hu.le
        push_cast
        linarith

/-- **The errors of a quotient.** The unit becomes a small part of one, so that there is room for
another. -/
theorem isNear_div {r : ℚ} (hv : 0 ≤ v) (hw : 10 ≤ w) (hc : c ≤ 16) (hx : IsNear c x v)
    (hx0 : 0 ≤ x) (hy : |y - w| ≤ w * unitRoundoff)
    (hr : |r - x / y| ≤ x / y * unitRoundoff + halfUnit) : IsNear (c + 3) r (v / w) := by
  have hu := unitRoundoff_pos
  have hu' := unitRoundoff_le_thousandth
  have hh := halfUnit_pos
  have hc' : (c : ℚ) ≤ 16 := by exact_mod_cast hc
  have hc0 : (0 : ℚ) ≤ c := Nat.cast_nonneg c
  unfold IsNear at hx ⊢
  generalize unitRoundoff = u at *
  generalize halfUnit = h at *
  have hw0 : 0 < w := by linarith
  -- a divisor that is rounded from ten or more is positive
  have hy0 : 0 < y := by
    have := (abs_le.1 hy).1
    nlinarith
  -- quotients become factors, so that no division is left in the inequalities
  obtain ⟨q, rfl⟩ : ∃ q, v = q * w := ⟨v / w, by field_simp⟩
  obtain ⟨z, rfl⟩ : ∃ z, x = z * y := ⟨x / y, by field_simp⟩
  rw [mul_div_cancel_right₀ _ hy0.ne'] at hr
  rw [mul_div_cancel_right₀ _ hw0.ne']
  have hq : 0 ≤ q := nonneg_of_mul_nonneg_left hv hw0
  have hz : 0 ≤ z := nonneg_of_mul_nonneg_left hx0 hy0
  -- the quotient before its rounding
  have hquotient : |z - q| ≤ z * u + q * (c * u) + h / 5 := by
    have hmul : |z - q| * w ≤ (z * u + q * (c * u) + h / 5) * w :=
      calc |z - q| * w = |z * w - z * y + (z * y - q * w)| := by
            rw [← abs_of_pos hw0, ← abs_mul, abs_of_pos hw0]
            congr 1
            ring
        _ ≤ |z * w - z * y| + |z * y - q * w| := abs_add_le _ _
        _ = z * |y - w| + |z * y - q * w| := by
            rw [← mul_sub, abs_mul, abs_of_nonneg hz, abs_sub_comm w]
        _ ≤ z * (w * u) + (q * w * (c * u) + 2 * h) :=
            add_le_add (mul_le_mul_of_nonneg_left hy hz) hx
        -- the divisor is ten at least, which makes two half units of the dividend a fifth of one
        _ ≤ (z * u + q * (c * u) + h / 5) * w := by nlinarith
    exact le_of_mul_le_mul_right hmul hw0
  -- a rough bound on it
  have hqc : q * (c * u) ≤ q * (16 / 1000) := by
    have : c * u ≤ 16 * (1 / 1000) := mul_le_mul hc' hu' hu.le (by norm_num)
    exact mul_le_mul_of_nonneg_left (by linarith) hq
  have hzu : z * u ≤ z * (1 / 1000) := mul_le_mul_of_nonneg_left hu' hz
  have hrough : z ≤ 5 / 4 * q + h := by
    have := (abs_le.1 hquotient).2
    linarith
  have hzu' : z * u ≤ (5 / 4 * q + h) * u := mul_le_mul_of_nonneg_right hrough hu.le
  have hhu : h * u ≤ h * (1 / 1000) := mul_le_mul_of_nonneg_left hu' hh.le
  have hqu : 0 ≤ q * u := mul_nonneg hq hu.le
  calc |r - q| ≤ |r - z| + |z - q| := abs_sub_le _ _ _
    _ ≤ z * u + h + (z * u + q * (c * u) + h / 5) := add_le_add hr hquotient
    _ ≤ q * ((c + 3 : Nat) * u) + 2 * h := by
        push_cast
        linarith

end

/-! ### Divisions by powers of ten -/

theorem magnitude_zero : (Binary.ofMagnitude .double false 0).magnitude = 0 :=
  Binary.magnitude_ofMagnitude Format.isProper_double (Nat.pow_pos (by decide)) false

theorem value_of_magnitude_eq_zero {x : Double} (h : x.magnitude = 0) : x.value = 0 := by
  rw [Binary.value, h, Format.value, Format.unitsOf, Nat.zero_sub, Nat.zero_mul, Nat.cast_zero,
    zero_div]

theorem value_nonneg (x : Double) : 0 ≤ x.value :=
  Format.value_nonneg _ _

/-- Nothing is left after too many steps. -/
theorem divideByPower_of_lt {steps k : Nat} (h : greatestPower * steps < k) (x : Double) :
    divideByPower steps x k = .ofMagnitude .double false 0 := by
  induction steps generalizing x k with
  | zero => rfl
  | succ steps ih =>
    rw [Nat.mul_succ] at h
    rw [divideByPower, if_neg (by omega)]
    exact ih (by omega) _

/-- The numbers that divisions begin with and lead to. -/
structure IsDividend (c : Nat) (x : Double) (v : ℚ) : Prop where
  finite : x.magnitude < Format.double.infinity
  nonneg : 0 ≤ v
  le : v ≤ 2 ^ 64
  near : IsNear c x.value v

/-- **One division has three errors:** that of the power of ten, that of rounding, and one that
takes in what is left over. -/
theorem IsDividend.divide {c : Nat} {x : Double} {v : ℚ} (h : IsDividend c x v) (hc : c ≤ 16)
    {k : Nat} (hk : 1 ≤ k) (hk' : k ≤ greatestPower) :
    IsDividend (c + 3) (divide x (powerOfTen k)) (v / 10 ^ k) := by
  have hten : (10 : ℚ) ≤ 10 ^ k := le_self_pow₀ (by norm_num) (by omega)
  have hpower := (rounds_powerOfTen hk').abs_sub_le (by linarith)
  have hu := unitRoundoff_le_thousandth
  -- a power of ten that is rounded is still no less than one, so the quotient is no greater than
  -- the dividend
  have hone : 1 ≤ (powerOfTen k).value := by
    have := (abs_le.1 hpower).1
    nlinarith
  have hx := value_nonneg x
  -- the dividend is small, and what it is divided by is not
  have hquotient : x.value / (powerOfTen k).value ≤ greatest := by
    have hlarge : (2 ^ 66 : ℚ) ≤ greatest := by
      exact_mod_cast natCast_le_greatest two_pow_le_greatestRead
    refine ((div_le_self hx hone).trans ?_).trans hlarge
    have hc' : (c : ℚ) * unitRoundoff ≤ 16 * (1 / 1000) :=
      mul_le_mul (by exact_mod_cast hc) hu unitRoundoff_pos.le (by norm_num)
    have hcv := mul_le_mul_of_nonneg_left hc' h.nonneg
    have hnear := (abs_le.1 h.near).2
    have hv := h.le
    have := halfUnit_le
    linarith
  have hrounds := rounds_divide (by linarith) hquotient
  refine ⟨hrounds.finite, div_nonneg h.nonneg (by linarith), ?_, ?_⟩
  · exact (div_le_self h.nonneg (by linarith)).trans h.le
  · exact isNear_div h.nonneg hten hc h.near hx hpower
      (hrounds.abs_sub_le_add (div_nonneg hx (by linarith)))

/-- **Divisions by a power of ten** have three errors each. A power that is too great for one
division is divided by in steps. -/
theorem IsDividend.divideByPower {steps c k : Nat} {x : Double} {v : ℚ} (h : IsDividend c x v)
    (hc : c + 3 * steps ≤ 16) (hk : 1 ≤ k) (hk' : k ≤ greatestPower * steps) :
    IsDividend (c + 3 * steps) (divideByPower steps x k) (v / 10 ^ k) := by
  induction steps generalizing c k x v with
  | zero => omega
  | succ steps ih =>
    rw [Nat.mul_succ] at hc hk'
    -- the induction is on the steps that are left; every one of them but the last divides by the
    -- greatest power
    unfold Json.divideByPower
    split
    next hle =>
      have hdivide := h.divide (by omega) hk hle
      exact { hdivide with near := hdivide.near.mono (by omega) hdivide.nonneg }
    next hlt =>
      have hrest := ih (h.divide (by omega) (by decide) le_rfl) (by omega)
        (by omega : 1 ≤ k - greatestPower) (by omega)
      -- the powers of the steps make up the whole power
      have hpower : v / 10 ^ greatestPower / 10 ^ (k - greatestPower) = v / 10 ^ k := by
        rw [div_div, ← pow_add, Nat.add_sub_cancel' (by omega)]
      rw [hpower] at hrest
      exact { hrest with near := hrest.near.mono (by omega) hrest.nonneg }

/-! ### Scaling -/

/-- A bound on numbers that are scaled, somewhat above those that are read: the digits that do not
fit are left out before. -/
def greatestScaled : ℚ :=
  greatestRead * (1 + 1 / 10 ^ 7)

/-- The error of scaling, in half digits: one rounding of the significand and three for each
division. -/
def scalingError : Nat := 13

/-- An integer is a dividend with one error, that of its own rounding. -/
theorem isDividend_ofInt {s : Nat} (hs : s ≤ greatestNatural) :
    IsDividend 1 (.ofInt .double s) s := by
  have hle : s ≤ 2 ^ 64 := hs.trans (by decide)
  have hrounds := rounds_ofInt
    ((hle.trans (Nat.pow_le_pow_right (by decide) (by decide))).trans two_pow_le_greatestRead)
  have hnonneg : (0 : ℚ) ≤ s := Nat.cast_nonneg s
  refine ⟨hrounds.finite, hnonneg, by exact_mod_cast hle, ?_⟩
  have hsum := hrounds.abs_sub_le_add hnonneg
  have := halfUnit_pos
  unfold IsNear
  rw [Nat.cast_one, one_mul]
  linarith

theorem mul_pow_le_of_le {s t j k m : Nat} (hs : s ≤ t) (hk : m ≤ k)
    (h : t * Nat.pow 2 j ≤ Nat.pow 10 m) : s * 2 ^ j ≤ 10 ^ k :=
  calc s * 2 ^ j ≤ t * 2 ^ j := Nat.mul_le_mul_right _ hs
    _ ≤ 10 ^ m := h
    _ ≤ 10 ^ k := Nat.pow_le_pow_right (by decide) hk

/-- A number that has been scaled to another. -/
structure IsScaled (x : Double) (v : ℚ) : Prop where
  finite : x.magnitude < Format.double.infinity
  near : IsNear scalingError x.value v

theorem isScaled_of_magnitude_eq_zero {x : Double} {v : ℚ} (hx : x.magnitude = 0)
    (h : IsNear 0 0 v) (hv : 0 ≤ v) : IsScaled x v where
  finite := by
    rw [hx]
    decide
  near := by
    rw [value_of_magnitude_eq_zero hx]
    exact h.mono (Nat.zero_le _) hv

/-- What a power of ten that is too small leaves is nothing, and was next to nothing: the quotient
is below half a unit of the smallest numbers. -/
theorem isNear_zero {s k : Nat} (hs : s ≤ greatestNatural) (hk : greatestPower * 4 < k) :
    IsNear 0 0 (s / 10 ^ k : ℚ) := by
  -- powers of this size are compared by the kernel, on natural numbers
  have hpow : s * 2 ^ (Format.double.unitExponent + 1) ≤ 10 ^ k :=
    mul_pow_le_of_le hs hk.le (Nat.le_of_ble_eq_true (by decide +kernel))
  have hpow' : (s * 2 ^ (Format.double.unitExponent + 1) : ℚ) ≤ 10 ^ k := by exact_mod_cast hpow
  have hle : (s / 10 ^ k : ℚ) ≤ halfUnit := by
    rw [halfUnit, div_le_div_iff₀ (by positivity) (by positivity)]
    linarith
  have hnonneg : (0 : ℚ) ≤ s / 10 ^ k := by positivity
  have := halfUnit_pos
  unfold IsNear
  rw [zero_sub, abs_neg, abs_of_nonneg hnonneg, Nat.cast_zero, zero_mul, mul_zero, zero_add]
  linarith

/-- A product with a power of ten stays below infinity. -/
theorem isScaled_multiply {s k : Nat} (hs : s ≤ greatestNatural) (hk : k ≤ greatestPower)
    (hpos : 0 < s) (hle : (s * 10 ^ k : ℚ) ≤ greatestScaled) :
    IsScaled (multiply (.ofInt .double s) (powerOfTen k)) (s * 10 ^ k) := by
  -- the factors are in range by themselves
  have hsmall : s ≤ greatestRead :=
    (hs.trans (by decide : greatestNatural ≤ Nat.pow 2 66)).trans two_pow_le_greatestRead
  have hs1 : (1 : ℚ) ≤ s := by exact_mod_cast hpos
  have hten : (1 : ℚ) ≤ 10 ^ k := one_le_pow₀ (by norm_num)
  have hx := (rounds_ofInt hsmall).abs_sub_le hs1
  have hp := (rounds_powerOfTen hk).abs_sub_le hten
  -- the rounded product may exceed the exact one by a little, and the bound leaves room for that
  have hproduct : (Binary.ofInt .double s).value * (powerOfTen k).value ≤ greatest := by
    have hx' : (Binary.ofInt .double s).value ≤ s * (1 + 1 / 10 ^ 15) := by
      have := (abs_le.1 hx).2
      nlinarith [unitRoundoff_le]
    have hp' : (powerOfTen k).value ≤ 10 ^ k * (1 + 1 / 10 ^ 15) := by
      have := (abs_le.1 hp).2
      nlinarith [unitRoundoff_le]
    have hread : (0 : ℚ) ≤ greatestRead := Nat.cast_nonneg _
    calc (Binary.ofInt .double s).value * (powerOfTen k).value
        ≤ s * (1 + 1 / 10 ^ 15) * (10 ^ k * (1 + 1 / 10 ^ 15)) :=
          mul_le_mul hx' hp' (value_nonneg _) (by positivity)
      _ = s * 10 ^ k * (1 + 1 / 10 ^ 15) ^ 2 := by ring
      _ ≤ greatestScaled * (1 + 1 / 10 ^ 15) ^ 2 :=
          mul_le_mul_of_nonneg_right hle (by positivity)
      _ ≤ greatestRead * (1000001 / 1000000) := by
          rw [greatestScaled, mul_assoc]
          exact mul_le_mul_of_nonneg_left (by norm_num) hread
      _ ≤ greatest := greatestRead_le
  have hrounds := rounds_multiply hproduct
  have hnear := isNear_mul (by linarith) (by linarith) hx hp
    (hrounds.abs_sub_le_add (mul_nonneg (value_nonneg _) (value_nonneg _)))
  exact ⟨hrounds.finite, hnear.mono (by decide) (by positivity)⟩

/-- **Divisions by a power of ten,** until nothing is left. -/
theorem isScaled_divideByPower {s k : Nat} (hs : s ≤ greatestNatural) (hk : 1 ≤ k) :
    IsScaled (divideByPower 4 (.ofInt .double s) k) (s / 10 ^ k) := by
  obtain hfar | hnear := Nat.lt_or_ge (greatestPower * 4) k
  · rw [divideByPower_of_lt hfar]
    exact isScaled_of_magnitude_eq_zero magnitude_zero (isNear_zero hs hfar) (by positivity)
  · have hdividend := (isDividend_ofInt hs).divideByPower (by decide) hk hnear
    exact ⟨hdividend.finite, hdividend.near⟩

theorem natCast_mul_pow (a b k : Nat) : ((a * Nat.pow b k : Nat) : ℚ) = a * b ^ k := by
  rw [Nat.pow_eq]
  push_cast
  rfl

/-- A number in range has no greater power of ten, which is why a table of powers up to the greatest
suffices. -/
theorem le_greatestPower {s k : Nat} (hpos : 0 < s)
    (hle : (s * 10 ^ k : ℚ) ≤ greatestScaled) : k ≤ greatestPower := by
  by_contra hlt
  -- otherwise the power alone would be ten times out of range
  have hs1 : (1 : ℚ) ≤ s := by exact_mod_cast hpos
  have hpow : (10 : ℚ) ^ (greatestPower - 4 + 5) ≤ 10 ^ k :=
    pow_le_pow_right₀ (by norm_num) (by unfold greatestPower at hlt ⊢; omega)
  have hten : (0 : ℚ) < 10 ^ (greatestPower - 4) := by positivity
  rw [greatestScaled, greatestRead, natCast_mul_pow] at hle
  rw [pow_add] at hpow
  push_cast at hle
  generalize (10 : ℚ) ^ (greatestPower - 4) = t at *
  nlinarith

/-- **What scaling gives,** as long as the number is in range. -/
theorem exists_scaled? {s : Nat} (hs : s ≤ greatestNatural) {e : Int}
    (hle : (s * 10 ^ e : ℚ) ≤ greatestScaled) :
    ∃ x, scaled? s e = some x ∧ (s = 0 → x.magnitude = 0) ∧ IsScaled x (s * 10 ^ e) := by
  unfold scaled?
  dsimp only
  split
  -- zero is given for any power, before the power is looked at
  next hzero =>
    subst hzero
    have hmagnitude : (Binary.ofInt .double (0 : Nat)).magnitude = 0 := by decide +kernel
    have hnear : IsNear 0 0 0 := by
      have := halfUnit_pos
      rw [IsNear, sub_zero, abs_zero, zero_mul, zero_add]
      linarith
    have hproduct : ((0 : Nat) * 10 ^ e : ℚ) = 0 := by rw [Nat.cast_zero, zero_mul]
    rw [hproduct]
    exact ⟨_, rfl, fun _ => hmagnitude, isScaled_of_magnitude_eq_zero hmagnitude hnear le_rfl⟩
  next hpos =>
    split
    -- a negative power is divided by, in steps
    next hneg =>
      obtain ⟨k, rfl⟩ : ∃ k : Nat, e = -(k : Int) := ⟨(-e).toNat, by omega⟩
      rw [neg_neg, Int.toNat_natCast, zpow_neg, zpow_natCast, ← div_eq_mul_inv]
      exact ⟨_, rfl, fun h => absurd h hpos, isScaled_divideByPower hs (by omega)⟩
    -- a power that is not negative is multiplied by, and the table goes as far as numbers in range
    -- need it
    next hnatural =>
      obtain ⟨k, rfl⟩ := Int.eq_ofNat_of_zero_le (not_lt.1 hnatural)
      rw [zpow_natCast] at hle ⊢
      have hk : k ≤ greatestPower := le_greatestPower (Nat.pos_of_ne_zero hpos) hle
      have hscaled := isScaled_multiply hs hk (Nat.pos_of_ne_zero hpos) hle
      -- the product is in range, so it is not refused as infinite
      have hfinite : (multiply (.ofInt .double s) (powerOfTen k)).isInfinite = false :=
        decide_eq_false hscaled.finite.ne
      rw [if_pos (by exact_mod_cast hk), Int.toNat_natCast, hfinite]
      exact ⟨_, rfl, fun h => absurd h hpos, hscaled⟩

/-! ### Scaling without errors on the way -/

/-- A natural number of few enough digits, with zeros behind, has a value without rounding. -/
theorem value_ofMagnitude {c j : Nat} (hc : c < 2 ^ Format.double.precision)
    (hle : c * 2 ^ j ≤ greatestRead) :
    (Binary.ofMagnitude .double false (Format.double.roundRatio (c * 2 ^ j) 1)).value =
      c * 2 ^ j := by
  have hfinite : Format.double.roundRatio (c * 2 ^ j) 1 < Format.double.infinity := by
    refine roundRatio_lt_of_le Nat.one_pos ?_
    rw [Nat.cast_one, div_one]
    exact natCast_le_greatest hle
  rw [Binary.value, Binary.magnitude_ofMagnitude Format.isProper_double (lt_signBit hfinite)]
  exact Format.value_roundRatio_of_lt Format.isProper_double hc hfinite

theorem le_greatestRead_of_lt {s : Nat} (hs : s < 2 ^ Format.double.precision) :
    s ≤ greatestRead :=
  (hs.le.trans (by decide : 2 ^ Format.double.precision ≤ Nat.pow 2 66)).trans
    two_pow_le_greatestRead

/-- Naturals below `2 ^ 53` are kept. -/
theorem value_ofInt {s : Nat} (hs : s < 2 ^ Format.double.precision) :
    (Binary.ofInt .double s).value = s := by
  have hvalue := value_ofMagnitude hs (j := 0)
    (by rw [Nat.pow_zero, Nat.mul_one]; exact le_greatestRead_of_lt hs)
  simp only [pow_zero, mul_one] at hvalue
  exact hvalue

/-- The powers of ten that are kept: those of five are below `2 ^ 53`. -/
def exactPower : Nat := 22

theorem value_powerOfTen {k : Nat} (hk : k ≤ exactPower) : (powerOfTen k).value = 10 ^ k := by
  have hfive : 5 ^ k < 2 ^ Format.double.precision :=
    (Nat.pow_le_pow_right (by decide) hk).trans_lt (by decide)
  have hten : 5 ^ k * 2 ^ k = 10 ^ k := (Nat.mul_pow 5 2 k).symm
  have hvalue := value_ofMagnitude hfive (j := k)
    (by rw [hten]; exact ten_pow_le_greatestRead (hk.trans (by decide)))
  rw [hten] at hvalue
  refine hvalue.trans ?_
  exact_mod_cast hten

/-- **A short number times a small power of ten is rounded once,** since both are numbers without
rounding, and only the product or the quotient is rounded. -/
theorem rounds_scaled? {s : Nat} (hs : s < 2 ^ Format.double.precision) (hpos : 0 < s) {e : Int}
    (he : e.natAbs ≤ exactPower) {x : Double} (hx : scaled? s e = some x) :
    Rounds x (s * 10 ^ e) := by
  have hvalue := value_ofInt hs
  unfold scaled? at hx
  dsimp only at hx
  rw [if_neg hpos.ne'] at hx
  split at hx
  next hneg =>
    obtain ⟨k, rfl⟩ : ∃ k : Nat, e = -(k : Int) := ⟨(-e).toNat, by omega⟩
    have hk : k ≤ exactPower := by simpa using he
    -- one division is enough, as the power is in the table
    rw [neg_neg, Int.toNat_natCast, divideByPower, if_pos (hk.trans (by decide))] at hx
    obtain rfl := Option.some.inj hx
    have hpower := value_powerOfTen hk
    have hten : (1 : ℚ) ≤ 10 ^ k := one_le_pow₀ (by norm_num)
    have hquotient : (s / 10 ^ k : ℚ) ≤ greatest :=
      (div_le_self (Nat.cast_nonneg _) hten).trans (natCast_le_greatest (le_greatestRead_of_lt hs))
    have hrounds := rounds_divide (x := .ofInt .double s) (y := powerOfTen k)
      (by rw [hpower]; positivity) (by rwa [hvalue, hpower])
    rw [hvalue, hpower] at hrounds
    rwa [zpow_neg, zpow_natCast, ← div_eq_mul_inv]
  next hnatural =>
    obtain ⟨k, rfl⟩ := Int.eq_ofNat_of_zero_le (not_lt.1 hnatural)
    have hk : k ≤ exactPower := by simpa using he
    have hpower := value_powerOfTen hk
    -- the product is finite, or it would have been refused
    rw [if_pos (by exact_mod_cast hk.trans (by decide)), Int.toNat_natCast] at hx
    split at hx
    · cases hx
    · obtain rfl := Option.some.inj hx
      have hproduct : (s * 10 ^ k : ℚ) ≤ greatest := by
        have hle : s * 10 ^ k ≤ greatestRead :=
          (Nat.mul_le_mul hs.le (Nat.pow_le_pow_right (by decide) hk)).trans
            (Nat.le_of_ble_eq_true (by decide +kernel))
        exact_mod_cast natCast_le_greatest hle
      have hrounds := rounds_multiply (x := .ofInt .double s) (y := powerOfTen k)
        (by rwa [hvalue, hpower])
      rw [hvalue, hpower] at hrounds
      rwa [zpow_natCast]

theorem mul_pow_le_mul_pow {a b c d j k : Nat} (h : a * Nat.pow b j ≤ c * Nat.pow d k) :
    a * b ^ j ≤ c * d ^ k := h

/-- A number that is not too small is rounded to one with all of its digits. -/
theorem Rounds.normal {x : Double} {v : ℚ} (h : Rounds x v) (hv : 1 / 10 ^ exactPower ≤ v) :
    Format.double.hidden ≤ x.magnitude := by
  by_contra hlt
  rw [not_le] at hlt
  -- the interval of a number without its leading digit ends below
  have hshift : x.shift = 0 := by
    unfold Binary.shift
    rw [Nat.div_eq_of_lt hlt]
  have hhigh : x.interval.high = 4 * x.magnitude + 2 := by
    have hsig : x.significand = x.magnitude := by
      rw [Binary.significand, hshift, Nat.zero_mul, Nat.sub_zero]
    change (4 * x.significand + 2) * 2 ^ x.shift = _
    rw [hshift, hsig, pow_zero, Nat.mul_one]
  have hlarge : (4 * Format.double.hidden + 2) * 10 ^ exactPower ≤
      4 * 2 ^ Format.double.unitExponent :=
    mul_pow_le_mul_pow (Nat.le_of_ble_eq_true (by decide +kernel))
  have hmem := h.mem.2.1
  rw [hhigh] at hmem
  have hle : (quarters .double * (1 / 10 ^ exactPower) : ℚ) ≤ (4 * x.magnitude + 2 : Nat) :=
    (mul_le_mul_of_nonneg_left hv (quarters_pos _).le).trans hmem
  rw [quarters, mul_one_div, div_le_iff₀ (by positivity)] at hle
  have hle' : 4 * 2 ^ Format.double.unitExponent ≤ (4 * x.magnitude + 2) * 10 ^ exactPower := by
    exact_mod_cast hle
  have hlt' : (4 * x.magnitude + 2) * 10 ^ exactPower <
      (4 * Format.double.hidden + 2) * 10 ^ exactPower :=
    Nat.mul_lt_mul_of_pos_right (by omega) (Nat.pow_pos (by decide))
  exact absurd (hlt'.trans_le (hlarge.trans hle')) (lt_irrefl _)

end QueryGateway.Json
