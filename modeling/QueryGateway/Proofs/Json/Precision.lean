import QueryGateway.Proofs.Json.Numerals
import QueryGateway.Proofs.Json.Scaling

/-!
# What becomes of numbers

A number is read into an integer or a floating-point number and written anew. Whole numbers of
sixty-four bits and short decimal numbers come back as they are, and every other number as one that
is close to it (`Numeral.KeptAs`, `exists_value?`).

Digits are read into an integer of sixty-four bits. Those that do not fit are left out, so that what
is read agrees with what is written in its leading digits at least (`Leads`).
-/

namespace QueryGateway.Json

open Number Text

/-- The digits of a numeral are digits. -/
structure Numeral.HasDigits (n : Numeral) : Prop where
  whole : ∀ c ∈ n.whole, c.isDigit = true
  fraction : ∀ c ∈ n.fraction.getD [], c.isDigit = true

theorem IsUnsigned.hasDigits {n : Numeral} {cs : List Char} (h : IsUnsigned n cs) :
    n.HasDigits where
  whole := h.isWhole.isDigit
  fraction := by
    obtain ⟨isNegative, whole, written?, power?⟩ := n
    obtain ⟨-, fraction, exponent, hfraction, -⟩ := h
    cases hfraction with
    | absent => exact fun c hc => nomatch hc
    | present ds h => exact h.isDigit

/-! ### Leading digits -/

/-- **The leading digits of a number:** what is written as `n * 10 ^ e`, with whatever digits behind
it, lies between two neighbours at the leading digits. -/
structure Leads (lead : Nat) (k : Int) (n : Nat) (e : Int) : Prop where
  le : (lead * 10 ^ k : ℚ) ≤ n * 10 ^ e
  ge : ((n + 1) * 10 ^ e : ℚ) ≤ (lead + 1) * 10 ^ k

namespace Leads

variable {lead n : Nat} {k e : Int}

theorem refl (n : Nat) (e : Int) : Leads n e n e :=
  ⟨le_rfl, le_rfl⟩

/-- **Reading one more digit** keeps what leads: the digit is less than a unit of the place in front
of it. -/
theorem digit (h : Leads lead k n e) {d : Nat} (hd : d < 10) :
    Leads lead k (10 * n + d) (e - 1) := by
  obtain ⟨hle, hge⟩ := h
  have hten : (0 : ℚ) < 10 ^ (e - 1) := zpow_pos (by norm_num) _
  -- ten units of the new place are one of the old
  have hpow : (10 : ℚ) ^ e = 10 ^ (e - 1) * 10 := by
    rw [← zpow_add_one₀ (by norm_num), sub_add_cancel]
  have hd0 : (0 : ℚ) ≤ d := Nat.cast_nonneg d
  have hd9 : (d : ℚ) + 1 ≤ 10 := by exact_mod_cast hd
  rw [hpow] at hle hge
  -- the digit can only add, and it adds less than what is missing to the next number that leads
  constructor
  · have hmul := mul_nonneg hd0 hten.le
    push_cast
    linarith
  · have hmul := mul_le_mul_of_nonneg_right hd9 hten.le
    push_cast
    linarith

theorem shift (h : Leads lead k n e) : Leads lead (k + 1) n (e + 1) := by
  obtain ⟨hle, hge⟩ := h
  have hten : (10 : ℚ) ≠ 0 := by norm_num
  constructor
  · rw [zpow_add_one₀ hten, zpow_add_one₀ hten]
    linarith
  · rw [zpow_add_one₀ hten, zpow_add_one₀ hten]
    linarith

/-- A digit in front of the point. -/
theorem wholeDigit (h : Leads lead k n e) {d : Nat} (hd : d < 10) :
    Leads lead (k + 1) (10 * n + d) e := by
  have hshift := (h.digit hd).shift
  rwa [sub_add_cancel] at hshift

end Leads

/-! ### Reading digits -/

/-- The fewest leading digits that are read of a number that does not fit. -/
def leastLead : Nat := 10 ^ 18

namespace Accumulator

/-- **What has been read** of the number `n * 10 ^ e`: all of it, or enough leading digits. -/
structure Reads (a : Accumulator) (n : Nat) (e : Int) : Prop where
  fits : a.significand ≤ greatestNatural
  digits : (a.isFull = false ∧ a.significand = n ∧ a.exponent = e) ∨
    ∃ lead k, leastLead ≤ lead ∧ Leads lead k n e ∧ Leads lead k a.significand a.exponent

variable {a : Accumulator} {n d : Nat} {e : Int}

/-- A number to which no digit can be added is long. -/
theorem leastLead_le (hd : d < 10) (h : greatestNatural < 10 * n + d) : leastLead ≤ n := by
  have hgreatest : greatestNatural = 18446744073709551615 := rfl
  unfold leastLead
  omega

/-- **A digit before the point.** -/
theorem Reads.addWhole (h : a.Reads n e) (hd : d < 10) :
    (a.addWhole d).Reads (10 * n + d) e := by
  obtain ⟨hfits, hdigits⟩ := h
  unfold Accumulator.addWhole
  -- either nothing has been dropped so far or what is kept leads what is written
  split
  -- digits after the first dropped one are dropped too, and only shift what is kept
  next hfull =>
    obtain ⟨hnot, -⟩ | ⟨lead, k, hlead, hn, ha⟩ := hdigits
    · cases hfull.symm.trans hnot
    · exact ⟨hfits, .inr ⟨lead, k + 1, hlead, hn.wholeDigit hd, ha.shift⟩⟩
  split
  -- the digit does not fit any more, so what is there begins to lead
  next hlarge =>
    obtain ⟨-, rfl, rfl⟩ | ⟨lead, k, hlead, hn, ha⟩ := hdigits
    · exact ⟨hfits, .inr ⟨_, _, leastLead_le hd hlarge, (Leads.refl _ _).wholeDigit hd,
        Leads.refl _ _⟩⟩
    · exact ⟨hfits, .inr ⟨lead, k + 1, hlead, hn.wholeDigit hd, ha.shift⟩⟩
  -- the digit fits, and is read on both sides
  next hsmall =>
    refine ⟨not_lt.1 hsmall, ?_⟩
    obtain ⟨hnot, rfl, rfl⟩ | ⟨lead, k, hlead, hn, ha⟩ := hdigits
    · exact .inl ⟨hnot, rfl, rfl⟩
    · exact .inr ⟨lead, k + 1, hlead, hn.wholeDigit hd, ha.wholeDigit hd⟩

/-- **A digit behind the point.** -/
theorem Reads.addFraction (h : a.Reads n e) (hd : d < 10) :
    (a.addFraction d).Reads (10 * n + d) (e - 1) := by
  obtain ⟨hfits, hdigits⟩ := h
  unfold Accumulator.addFraction
  split
  -- digits after the first dropped one are dropped too, and behind the point they do not even shift
  next hfull =>
    obtain ⟨hnot, -⟩ | ⟨lead, k, hlead, hn, ha⟩ := hdigits
    · cases hfull.symm.trans hnot
    · exact ⟨hfits, .inr ⟨lead, k, hlead, hn.digit hd, ha⟩⟩
  split
  -- the digit does not fit any more, so what is there begins to lead
  next hlarge =>
    obtain ⟨-, rfl, rfl⟩ | ⟨lead, k, hlead, hn, ha⟩ := hdigits
    · exact ⟨hfits, .inr ⟨_, _, leastLead_le hd hlarge, (Leads.refl _ _).digit hd,
        Leads.refl _ _⟩⟩
    · exact ⟨hfits, .inr ⟨lead, k, hlead, hn.digit hd, ha⟩⟩
  -- the digit fits, and is read on both sides
  next hsmall =>
    refine ⟨not_lt.1 hsmall, ?_⟩
    obtain ⟨hnot, rfl, rfl⟩ | ⟨lead, k, hlead, hn, ha⟩ := hdigits
    · exact .inl ⟨hnot, rfl, rfl⟩
    · exact .inr ⟨lead, k, hlead, hn.digit hd, ha.digit hd⟩

/-- Behind the point there is a new chance to fit. -/
theorem Reads.again (h : a.Reads n e) : Reads { a with isFull := false } n e :=
  ⟨h.fits, h.digits.imp_left fun hexact => ⟨rfl, hexact.2⟩⟩

/-- A number that has been read as it is. -/
structure IsExact (a : Accumulator) (n : Nat) (e : Int) : Prop where
  not_full : a.isFull = false
  significand : a.significand = n
  exponent : a.exponent = e

theorem IsExact.again (h : a.IsExact n e) : IsExact { a with isFull := false } n e :=
  ⟨rfl, h.significand, h.exponent⟩

theorem IsExact.addWhole (h : a.IsExact n e) (hfits : 10 * n + d ≤ greatestNatural) :
    (a.addWhole d).IsExact (10 * n + d) e := by
  obtain ⟨hfull, rfl, rfl⟩ := h
  simp only [Accumulator.addWhole, hfull, Bool.false_eq_true, if_false, if_neg (not_lt.2 hfits)]
  exact ⟨rfl, rfl, rfl⟩

theorem IsExact.addFraction (h : a.IsExact n e) (hfits : 10 * n + d ≤ greatestNatural) :
    (a.addFraction d).IsExact (10 * n + d) (e - 1) := by
  obtain ⟨hfull, rfl, rfl⟩ := h
  simp only [Accumulator.addFraction, hfull, Bool.false_eq_true, if_false, if_neg (not_lt.2 hfits)]
  exact ⟨rfl, rfl, rfl⟩

/-! ### Reading numerals -/

/-- The number that digits behind another make. -/
def goOn (n : Nat) (ds : List Char) : Nat :=
  ds.foldl (fun n c => 10 * n + digitValue c) n

theorem le_goOn (n : Nat) (ds : List Char) : n ≤ goOn n ds := by
  induction ds generalizing n with
  | nil => exact le_rfl
  | cons c ds ih => exact (by omega : n ≤ 10 * n + digitValue c).trans (ih _)

section

variable {ds : List Char}

theorem Reads.foldl_addWhole (h : a.Reads n e) (hds : ∀ c ∈ ds, c.isDigit = true) :
    (ds.foldl (fun a c => a.addWhole (digitValue c)) a).Reads (goOn n ds) e := by
  induction ds generalizing a n with
  | nil => exact h
  | cons c ds ih =>
    exact ih (h.addWhole (digitValue_lt (hds c List.mem_cons_self)))
      fun b hb => hds b (List.mem_cons_of_mem c hb)

/-- **All digits behind the point,** one after the other. Each makes the exponent less by one. -/
theorem Reads.foldl_addFraction (h : a.Reads n e) (hds : ∀ c ∈ ds, c.isDigit = true) :
    (ds.foldl (fun a c => a.addFraction (digitValue c)) a).Reads (goOn n ds) (e - ds.length) := by
  induction ds generalizing a n e with
  | nil =>
    rw [List.length_nil, Nat.cast_zero, sub_zero]
    exact h
  | cons c ds ih =>
    have hrest := ih (h.addFraction (digitValue_lt (hds c List.mem_cons_self)))
      fun b hb => hds b (List.mem_cons_of_mem c hb)
    have hlength : e - ((c :: ds).length : Int) = e - 1 - ds.length := by
      rw [List.length_cons]
      omega
    rwa [hlength]

theorem IsExact.foldl_addWhole (h : a.IsExact n e) (hfits : goOn n ds ≤ greatestNatural) :
    (ds.foldl (fun a c => a.addWhole (digitValue c)) a).IsExact (goOn n ds) e := by
  induction ds generalizing a n with
  | nil => exact h
  | cons c ds ih => exact ih (h.addWhole ((le_goOn _ ds).trans hfits)) hfits

/-- All digits behind the point, as long as they fit: nothing is dropped, so what is read is what is
written. -/
theorem IsExact.foldl_addFraction (h : a.IsExact n e) (hfits : goOn n ds ≤ greatestNatural) :
    (ds.foldl (fun a c => a.addFraction (digitValue c)) a).IsExact (goOn n ds) (e - ds.length) := by
  induction ds generalizing a n e with
  | nil =>
    rw [List.length_nil, Nat.cast_zero, sub_zero]
    exact h
  | cons c ds ih =>
    have hrest := ih (h.addFraction ((le_goOn _ ds).trans hfits)) hfits
    have hlength : e - ((c :: ds).length : Int) = e - 1 - ds.length := by
      rw [List.length_cons]
      omega
    rwa [hlength]

end

theorem significand_eq (n : Numeral) :
    n.significand = goOn (goOn 0 n.whole) (n.fraction.getD []) := by
  rw [Numeral.significand, valueOfDigits, List.foldl_append]
  rfl

/-- **What is read of a numeral.** -/
theorem reads_ofNumeral {n : Numeral} (hn : n.HasDigits) :
    (ofNumeral n).Reads n.significand (-((n.fraction.getD []).length : Int)) := by
  have hstart : Reads ({} : Accumulator) 0 0 := ⟨Nat.zero_le _, .inl ⟨rfl, rfl, rfl⟩⟩
  have hreads := (hstart.foldl_addWhole hn.whole).again.foldl_addFraction hn.fraction
  rw [zero_sub, ← significand_eq] at hreads
  exact hreads

/-- **A numeral of sixty-four bits is read as it is.** -/
theorem isExact_ofNumeral {n : Numeral} (h : n.significand ≤ greatestNatural) :
    (ofNumeral n).IsExact n.significand (-((n.fraction.getD []).length : Int)) := by
  rw [significand_eq] at h
  have hstart : IsExact ({} : Accumulator) 0 0 := ⟨rfl, rfl, rfl⟩
  have hexact := (hstart.foldl_addWhole ((le_goOn _ _).trans h)).again.foldl_addFraction h
  rw [zero_sub, ← significand_eq] at hexact
  exact hexact

/-- What is read differs from what is written behind the leading digits only, and these make a
number of some size, so the difference is relative to it. -/
theorem Reads.abs_sub_le (h : a.Reads n e) (p : Int) :
    |(a.significand * 10 ^ (a.exponent + p) - n * 10 ^ (e + p) : ℚ)| ≤
      n * 10 ^ (e + p) / leastLead := by
  have hten : (10 : ℚ) ≠ 0 := by norm_num
  have hp : (0 : ℚ) < 10 ^ p := zpow_pos (by norm_num) p
  have hlead0 : (0 : ℚ) < leastLead := by exact_mod_cast (by decide : 0 < leastLead)
  -- without dropped digits there is no difference
  obtain ⟨-, ⟨-, rfl, rfl⟩ | ⟨lead, k, hlead, hn, ha⟩⟩ := h
  · rw [sub_self, abs_zero]
    exact div_nonneg (mul_nonneg (Nat.cast_nonneg _) (zpow_nonneg (by norm_num) _)) hlead0.le
  · -- one unit of the place where dropping began is the most that can differ
    have hlead' : (leastLead : ℚ) ≤ lead := by exact_mod_cast hlead
    have hk : (0 : ℚ) < 10 ^ k := zpow_pos (by norm_num) k
    have he : (0 : ℚ) < 10 ^ e := zpow_pos (by norm_num) e
    have hexp : (0 : ℚ) < 10 ^ a.exponent := zpow_pos (by norm_num) _
    -- both lie between the same neighbours
    have hbetween : |(a.significand * 10 ^ a.exponent - n * 10 ^ e : ℚ)| ≤ 10 ^ k := by
      obtain ⟨hnle, hnge⟩ := hn
      obtain ⟨hale, hage⟩ := ha
      rw [abs_le]
      constructor <;> linarith
    have hlarge : leastLead * 10 ^ k ≤ (n * 10 ^ e : ℚ) :=
      (mul_le_mul_of_nonneg_right hlead' hk.le).trans hn.le
    rw [zpow_add₀ hten, zpow_add₀ hten, ← mul_assoc, ← mul_assoc, ← sub_mul, abs_mul,
      abs_of_pos hp, mul_div_right_comm]
    -- and that unit is a small part of a number with so many digits in front
    refine mul_le_mul_of_nonneg_right (hbetween.trans ?_) hp.le
    rw [le_div_iff₀ hlead0]
    linarith

end Accumulator

/-! ### Numbers that are kept -/

namespace Numeral

/-- **Whole numbers of sixty-four bits,** with a sign or without. They are written without fraction
and exponent, for one with either is read as a floating-point number. -/
structure IsInteger (n : Numeral) : Prop where
  fraction : n.fraction = none
  exponent : n.exponent = none
  least : -(2 ^ 63) ≤ n.number
  greatest : n.number < 2 ^ 64

/-- **Short decimal numbers:** of fifteen digits and with a small power of ten. For these the
nearest number in double precision gives the digits back. -/
structure IsShort (n : Numeral) : Prop where
  significand : n.significand < 10 ^ 15
  power : n.power.natAbs ≤ exactPower

/-- **What becomes of a number.** Its sign stays, whole and short numbers stay as they are, and no
number changes by more than a part in `2 ^ 49`, or by two units where digits run out. -/
structure KeptAs (n n' : Numeral) : Prop where
  isNegative : n'.isNegative = n.isNegative
  exact : n.IsInteger ∨ n.IsShort → n'.number = n.number
  near : |n'.number - n.number| ≤ |n.number| / 2 ^ 49 + 2 / 2 ^ Format.double.unitExponent

variable {n n' : Numeral}

theorem number_eq (hsign : n'.isNegative = n.isNegative) (h : n'.magnitude = n.magnitude) :
    n'.number = n.number := by
  rw [number, number, hsign, h]

theorem abs_number_sub (hsign : n'.isNegative = n.isNegative) :
    |n'.number - n.number| = |n'.magnitude - n.magnitude| := by
  rw [number, number, hsign]
  split
  · rw [neg_sub_neg, abs_sub_comm]
  · rfl

/-- Numbers of one sign are compared without it. What is said of magnitudes is then all that keeping
asks for. -/
theorem KeptAs.of_magnitude (hsign : n'.isNegative = n.isNegative)
    (hexact : n.IsInteger ∨ n.IsShort → n'.magnitude = n.magnitude)
    (hnear : |n'.magnitude - n.magnitude| ≤
      n.magnitude * (16 * unitRoundoff) + 4 * halfUnit) : n.KeptAs n' where
  isNegative := hsign
  exact := fun h => number_eq hsign (hexact h)
  near := by
    rw [abs_number_sub hsign, abs_number]
    -- sixteen unit roundoffs, written as keeping writes them
    have hdigit : 16 * unitRoundoff = 1 / 2 ^ 49 := by
      have hprecision : Format.double.precision = 53 := rfl
      rw [unitRoundoff, hprecision]
      norm_num
    -- four half units of the smallest numbers, written so as well
    have hunit : 4 * halfUnit = 2 / 2 ^ Format.double.unitExponent := by
      rw [halfUnit, pow_succ]
      field_simp
      norm_num
    rwa [hdigit, hunit, mul_one_div] at hnear

/-- The magnitude, from the digits before the point on. -/
theorem magnitude_eq (n : Numeral) : n.magnitude =
    n.significand * 10 ^ (-((n.fraction.getD []).length : Int) + n.exponent.getD 0) := by
  rw [magnitude, power, neg_add_eq_sub]

theorem magnitude_eq_significand (hfraction : n.fraction = none) (hexponent : n.exponent = none) :
    n.magnitude = n.significand := by
  rw [magnitude, power, hfraction, hexponent]
  simp

theorem IsInteger.magnitude_lt (h : n.IsInteger) : n.magnitude < 2 ^ 64 := by
  rw [← abs_number, abs_lt]
  have hleast := h.least
  constructor
  · linarith
  · exact h.greatest

/-- Whole and short numbers fit. -/
theorem significand_le (h : n.IsInteger ∨ n.IsShort) : n.significand ≤ greatestNatural := by
  obtain h | h := h
  · have hlt := h.magnitude_lt
    rw [magnitude_eq_significand h.fraction h.exponent] at hlt
    have hlt' : n.significand < 2 ^ 64 := by exact_mod_cast hlt
    exact Nat.le_sub_one_of_lt hlt'
  · exact h.significand.le.trans (by decide)

/-! ### What is read and written -/

theorem abs_read_sub_le (hn : n.HasDigits) :
    |((Accumulator.ofNumeral n).significand *
      10 ^ ((Accumulator.ofNumeral n).exponent + n.exponent.getD 0) - n.magnitude : ℚ)| ≤
        n.magnitude / leastLead := by
  rw [magnitude_eq]
  exact (Accumulator.reads_ofNumeral hn).abs_sub_le _

theorem div_leastLead_le {v : ℚ} (hv : 0 ≤ v) : v / leastLead ≤ v * (unitRoundoff / 50) := by
  have hprecision : Format.double.precision = 53 := rfl
  have hlead : (1 / leastLead : ℚ) ≤ unitRoundoff / 50 := by
    rw [unitRoundoff, hprecision, leastLead]
    norm_num
  rw [div_eq_mul_one_div]
  exact mul_le_mul_of_nonneg_left hlead hv

/-- **The errors of a number:** of its leading digits, of scaling and of writing. -/
theorem abs_sub_le_of_steps {w r a v : ℚ} (hv : 0 ≤ v) (ha : |a - v| ≤ v / leastLead)
    (hr : IsNear scalingError r a) (hw : |w - r| ≤ r * unitRoundoff + halfUnit) :
    |w - v| ≤ v * (16 * unitRoundoff) + 4 * halfUnit := by
  -- the dropped digits are a fiftieth of a unit roundoff at most
  have ha' := ha.trans (div_leastLead_le hv)
  have hu := unitRoundoff_pos
  have hu' := unitRoundoff_le_thousandth
  have hh := halfUnit_pos
  have herror : (scalingError : ℚ) = 13 := rfl
  unfold IsNear at hr
  rw [herror] at hr
  generalize unitRoundoff = u at *
  -- no more is needed of the constants than these bounds
  generalize halfUnit = h at *
  have hvu : v * u ≤ v * (1 / 1000) := mul_le_mul_of_nonneg_left hu' hv
  -- rough bounds on the numbers in between
  have hale : a ≤ 11 / 10 * v := by
    have := (abs_le.1 ha').2
    linarith
  have hau : a * u ≤ 11 / 10 * v * u := mul_le_mul_of_nonneg_right hale hu.le
  have hrle : r ≤ 12 / 10 * v + 2 * h := by
    have := (abs_le.1 hr).2
    linarith
  have hru : r * u ≤ (12 / 10 * v + 2 * h) * u := mul_le_mul_of_nonneg_right hrle hu.le
  have hhu : h * u ≤ h * (1 / 1000) := mul_le_mul_of_nonneg_left hu' hh.le
  have hvu0 : 0 ≤ v * u := mul_nonneg hv hu.le
  -- from what is written by rounding, scaling and dropped digits to the number
  calc |w - v| ≤ |w - r| + (|r - a| + |a - v|) :=
        (abs_sub_le w r v).trans (add_le_add_right (abs_sub_le r a v) _)
    _ ≤ r * u + h + (a * (13 * u) + 2 * h + v * (u / 50)) := add_le_add hw (add_le_add hr ha')
    _ ≤ v * (16 * u) + 4 * h := by linarith

end Numeral

theorem magnitude_withSign {x : Double} (hfinite : x.magnitude < Format.double.infinity)
    (b : Bool) : (withSign b x).magnitude = x.magnitude :=
  Binary.magnitude_ofMagnitude Format.isProper_double (lt_signBit hfinite) b

theorem isNegative_withSign {x : Double} (hfinite : x.magnitude < Format.double.infinity)
    (b : Bool) : (withSign b x).isNegative = b :=
  Binary.isNegative_ofMagnitude Format.isProper_double (lt_signBit hfinite) b

/-- What is written is next to the number that is written. The shortest form lies in the interval of
the number and is off by half of it at most. -/
theorem abs_writtenMagnitude_sub_le (x : Double) :
    |writtenMagnitude x - x.value| ≤ x.value * unitRoundoff + halfUnit := by
  have hvalue := mul_nonneg (value_nonneg x) unitRoundoff_pos.le
  have hunit := halfUnit_pos
  unfold writtenMagnitude
  split
  -- zero is written as zero
  next hzero =>
    rw [value_of_magnitude_eq_zero hzero, sub_zero, abs_zero, zero_mul, zero_add]
    exact hunit.le
  next hpos =>
    have hnear := abs_shortestValue_sub_le Format.isProper_double .even x
      (Nat.pos_of_ne_zero hpos) Format.isFine_double
    -- the half of the interval, by the precision
    have hhalf : x.value / 2 ^ Format.double.precision = x.value * unitRoundoff := by
      rw [unitRoundoff, mul_one_div]
    rw [hhalf] at hnear
    exact hnear.trans (max_le (by linarith) (by unfold halfUnit at *; linarith))

/-- A sign changes nothing about rounding: value and interval are those of the magnitude. -/
theorem Rounds.of_magnitude_eq {x y : Double} {v : ℚ} (h : Rounds x v)
    (hmagnitude : y.magnitude = x.magnitude) : Rounds y v := by
  have hshift : y.shift = x.shift := by rw [Binary.shift, hmagnitude, Binary.shift]
  have hsignificand : y.significand = x.significand := by
    rw [Binary.significand, hmagnitude, hshift, Binary.significand]
  have hinterval : y.interval = x.interval := by
    unfold Binary.interval
    rw [hsignificand, hshift]
  refine ⟨hmagnitude ▸ h.finite, ?_, hinterval ▸ h.mem⟩
  rw [Binary.value, hmagnitude]
  exact h.near

/-- **A short number that is rounded once is written as itself.** -/
theorem Rounds.writtenMagnitude_eq {x : Double} {s : Nat} {e : Int} (h : Rounds x (s * 10 ^ e))
    (hs : 0 < s) (hs' : s < 10 ^ 15) (he : e.natAbs ≤ exactPower) :
    writtenMagnitude x = s * 10 ^ e := by
  have hpower : exactPower = 22 := rfl
  -- the number is not so small that digits of it are lost
  have hsmall : (1 / 10 ^ exactPower : ℚ) ≤ s * 10 ^ e := by
    have hs1 : (1 : ℚ) ≤ s := by exact_mod_cast hs
    have hten : (10 : ℚ) ^ (-(exactPower : Int)) ≤ 10 ^ e :=
      zpow_le_zpow_right₀ (by norm_num) (by omega)
    rw [zpow_neg, zpow_natCast] at hten
    rw [one_div]
    exact hten.trans (le_mul_of_one_le_left (zpow_nonneg (by norm_num) _) hs1)
  have hnormal := h.normal hsmall
  have hpos : x.magnitude ≠ 0 := (Format.double.hidden_pos.trans_le hnormal).ne'
  -- so the decimals in its interval are fine enough for one of fifteen digits to be the shortest
  rw [writtenMagnitude, if_neg hpos]
  exact shortestValue_eq_of_mem .even x hnormal hs' (by unfold finestPower; omega)
    (by unfold powerCount finestPower; omega) h.mem

/-! ### Reading and writing a number -/

namespace Numeral

variable {n : Numeral}

/-- **A floating-point number that is read.** -/
theorem exists_keptAs_float (hn : n.HasDigits) {x : Double}
    (hscaled : scaled? (Accumulator.ofNumeral n).significand
      ((Accumulator.ofNumeral n).exponent + n.exponent.getD 0) = some x)
    (hzero : (Accumulator.ofNumeral n).significand = 0 → x.magnitude = 0)
    (hx : IsScaled x ((Accumulator.ofNumeral n).significand *
      10 ^ ((Accumulator.ofNumeral n).exponent + n.exponent.getD 0)))
    (hinteger : n.IsInteger → n.significand = 0) :
    ∃ n', Writes (render (.float (withSign n.isNegative x))).toList (.value (.number n')) ∧
      n.KeptAs n' := by
  -- the sign is put on last and changes no magnitude
  have hmagnitude := magnitude_withSign hx.finite n.isNegative
  obtain ⟨n', hwrites, hsign, hwritten⟩ := exists_numeral_of_floatText (withSign n.isNegative x)
    (by rw [hmagnitude]; exact hx.finite)
  rw [isNegative_withSign hx.finite] at hsign
  refine ⟨n', hwrites, .of_magnitude hsign (fun hexact => ?_) ?_⟩
  · -- a short number has no dropped digits and is rounded once, so it is written as itself
    rw [hwritten]
    obtain ⟨-, hsignificand, hexponent⟩ := Accumulator.isExact_ofNumeral (significand_le hexact)
    obtain hs | hs := Nat.eq_zero_or_pos n.significand
    · rw [writtenMagnitude, hmagnitude, if_pos (hzero (hsignificand.trans hs)), magnitude, hs,
        Nat.cast_zero, zero_mul]
    · have hshort := hexact.resolve_left fun h => hs.ne' (hinteger h)
      have hpower : (Accumulator.ofNumeral n).exponent + n.exponent.getD 0 = n.power := by
        rw [hexponent, power, neg_add_eq_sub]
      rw [hsignificand, hpower] at hscaled
      have hrounds := rounds_scaled? (hshort.significand.trans (by decide)) hs hshort.power hscaled
      exact (hrounds.of_magnitude_eq hmagnitude).writtenMagnitude_eq hs hshort.significand
        hshort.power
  · -- in any case the three errors add up
    rw [hwritten]
    have hvalue : (withSign n.isNegative x).value = x.value := by
      rw [Binary.value, hmagnitude, Binary.value]
    exact abs_sub_le_of_steps n.magnitude_nonneg (abs_read_sub_le hn) hx.near
      (hvalue ▸ abs_writtenMagnitude_sub_le (withSign n.isNegative x))

/-- **A number in range that is no integer** is read as a floating-point number. A negative zero is
one of these, since no integer has its sign. -/
theorem exists_float (hn : n.HasDigits) (hle : n.magnitude ≤ greatestRead)
    (hinteger : n.IsInteger → n.significand = 0) :
    ∃ j, ((scaled? (Accumulator.ofNumeral n).significand
        ((Accumulator.ofNumeral n).exponent + n.exponent.getD 0)).map fun x =>
          Json.float (withSign n.isNegative x)) = some j ∧
      ∃ n', Writes (render j).toList (.value (.number n')) ∧ n.KeptAs n' := by
  -- the dropped digits may put what is read out of range, but by very little, which the bound for
  -- scaling allows
  have hread := (abs_le.1 (abs_read_sub_le hn)).2
  have hlead : n.magnitude / leastLead ≤ greatestRead * (1 / 10 ^ 7) := by
    rw [div_eq_mul_one_div]
    have hnonneg : (0 : ℚ) ≤ 1 / leastLead := by positivity
    exact mul_le_mul hle (by unfold leastLead; norm_num) hnonneg (Nat.cast_nonneg _)
  obtain ⟨x, hscaled, hzero, hx⟩ := exists_scaled? (Accumulator.reads_ofNumeral hn).fits
    (e := (Accumulator.ofNumeral n).exponent + n.exponent.getD 0)
    (by unfold greatestScaled; linarith)
  refine ⟨.float (withSign n.isNegative x), by rw [hscaled, Option.map_some], ?_⟩
  exact exists_keptAs_float hn hscaled hzero hx hinteger

/-! ### Integers -/

/-- A number without a fraction and an exponent all of whose digits have been read. -/
structure IsReadWhole (n : Numeral) : Prop where
  fraction : n.fraction = none
  exponent : n.exponent = none
  place : (Accumulator.ofNumeral n).exponent = 0

theorem isReadWhole_iff : (n.fraction.isNone && n.exponent.isNone &&
    decide ((Accumulator.ofNumeral n).exponent = 0)) = true ↔ n.IsReadWhole := by
  simp only [Bool.and_eq_true, Option.isNone_iff_eq_none, decide_eq_true_eq]
  exact ⟨fun h => ⟨h.1.1, h.1.2, h.2⟩, fun h => ⟨⟨h.fraction, h.exponent⟩, h.place⟩⟩

theorem significand_ofNumeral (h : n.IsInteger ∨ n.IsShort) :
    (Accumulator.ofNumeral n).significand = n.significand :=
  (Accumulator.isExact_ofNumeral (significand_le h)).significand

theorem IsInteger.isReadWhole (h : n.IsInteger) : n.IsReadWhole := by
  have hplace := (Accumulator.isExact_ofNumeral (significand_le (.inl h))).exponent
  rw [h.fraction] at hplace
  exact ⟨h.fraction, h.exponent, hplace⟩

/-- An integer with a sign fits if it is one of sixty-four bits. -/
theorem IsInteger.significand_le_of_isNegative (h : n.IsInteger) (hsign : n.isNegative = true) :
    n.significand ≤ Nat.pow 2 63 := by
  have hleast := h.least
  rw [number, hsign, if_pos rfl, magnitude_eq_significand h.fraction h.exponent,
    neg_le_neg_iff] at hleast
  exact_mod_cast hleast

/-- **An integer that is read.** -/
theorem IsReadWhole.keptAs (h : n.IsReadWhole) (hn : n.HasDigits) {k : Int}
    (hk : k.natAbs = (Accumulator.ofNumeral n).significand)
    (hsign : decide (k < 0) = n.isNegative) : n.KeptAs (integerNumeral k) := by
  refine .of_magnitude hsign (fun hexact => ?_) ?_
  · -- an exact integer has lost no digit
    rw [magnitude_integerNumeral, hk, significand_ofNumeral hexact,
      magnitude_eq_significand h.fraction h.exponent]
  · -- otherwise the dropped digits are the only difference, and less than what is allowed
    have hread := abs_read_sub_le hn
    rw [h.exponent, h.place, Option.getD_none, add_zero, zpow_zero, mul_one] at hread
    rw [magnitude_integerNumeral, hk]
    have hdigit := mul_nonneg n.magnitude_nonneg unitRoundoff_pos.le
    have hunit := halfUnit_pos
    have hlead := div_leastLead_le n.magnitude_nonneg
    linarith

/-- **Numbers are read and written anew,** as long as they are in range. -/
theorem exists_value? (hn : n.HasDigits) (hle : n.magnitude ≤ greatestRead) :
    ∃ j, n.value? = some j ∧
      ∃ n', Writes (render j).toList (.value (.number n')) ∧ n.KeptAs n' := by
  unfold value?
  dsimp only
  -- what is read whole is an integer if one can have its sign and size
  by_cases hwhole : n.IsReadWhole
  · rw [isReadWhole_iff.2 hwhole]
    simp only [Bool.true_and]
    cases hsign : n.isNegative with
    | false =>
      -- without a sign every integer that is read fits
      rw [if_pos (by rfl)]
      refine ⟨_, rfl, _, writes_integerText _, hwhole.keptAs hn (Int.natAbs_natCast _) ?_⟩
      rw [hsign, decide_eq_false_iff_not]
      omega
    | true =>
      rw [if_neg (by decide)]
      -- with a sign one of them may be too great or be zero
      split
      next hfits =>
        rw [Bool.and_eq_true, decide_eq_true_eq, decide_eq_true_eq] at hfits
        refine ⟨_, rfl, _, writes_integerText _, hwhole.keptAs hn ?_ ?_⟩
        · rw [Int.natAbs_neg, Int.natAbs_natCast]
        · rw [hsign, decide_eq_true_eq]
          omega
      next hfits =>
        -- what is left of the integers is a negative zero
        rw [← hsign]
        refine exists_float hn hle fun h => ?_
        by_contra hpos
        rw [significand_ofNumeral (.inl h), decide_eq_true (Nat.pos_of_ne_zero hpos),
          decide_eq_true (h.significand_le_of_isNegative hsign)] at hfits
        exact hfits rfl
  · rw [Bool.eq_false_iff.2 (mt isReadWhole_iff.1 hwhole)]
    exact exists_float hn hle fun h => absurd h.isReadWhole hwhole

end Numeral

end QueryGateway.Json
