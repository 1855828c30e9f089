import QueryGateway.Proofs.Number.Rounding

/-!
# Shortest decimal forms

What the shortest form of a number is good for. `shortest_spec` says what the search for it finds:
a decimal number in the rounding interval, and no coarser power of ten has a multiple there. So the
form is at most half a digit away from the number (`abs_shortestValue_sub_le`), and a decimal number
of fifteen digits that is rounded to a number comes back as its shortest form
(`shortestValue_eq_of_mem`): two multiples of one power of ten do not fit into an interval that is
narrower than the power.
-/

namespace QueryGateway.Number

/-! ### Multiples in an interval -/

namespace RoundingInterval

variable {i : RoundingInterval}

/-- What lies between two numbers of an interval. -/
theorem Mem.of_le_of_le {r s t : ℚ} (hr : i.Mem r) (ht : i.Mem t) (hrs : r ≤ s) (hst : s ≤ t) :
    i.Mem s := by
  refine ⟨hr.1.trans hrs, hst.trans ht.2.1, fun hclosed => ⟨fun heq => ?_, fun heq => ?_⟩⟩
  · exact (hr.2.2 hclosed).1 (le_antisymm hr.1 (heq ▸ hrs))
  · exact (ht.2.2 hclosed).2 (le_antisymm ht.2.1 (heq ▸ hst))

theorem contains_of_lt_of_lt {n : Nat} (hlow : i.low < n) (hhigh : n < i.high) :
    i.contains n = true := by
  unfold contains
  cases i.closed <;> simp [hlow, hhigh, hlow.le, hhigh.le]

/-- **What the search finds is in the interval.** It looks at the multiples next below and next
above the middle, and takes one only if it is inside. -/
theorem contains_of_nearest? {tie : Tie} {step d : Nat} (h : i.nearest? tie step = some d) :
    i.contains (d * step) = true := by
  unfold nearest? at h
  dsimp only at h
  split at h
  -- only one of them is inside
  next hbelow _ => rwa [← Option.some.inj h]
  next _ habove => rwa [← Option.some.inj h]
  · cases h
  next hbelow habove =>
    -- all that is left is one of two neighbours that are both in the interval
    split at h
    · rwa [← Option.some.inj h]
    split at h
    · rwa [← Option.some.inj h]
    cases tie with
    | up => rwa [← Option.some.inj h]
    | even =>
      rw [← Option.some.inj h]
      obtain hparity | hparity := Nat.mod_two_eq_zero_or_one (i.middle / step)
      · rwa [hparity, Nat.add_zero]
      · rwa [hparity]

/-- **Without a nearest multiple there is none:** one of the neighbours of the middle would be at
least as near. -/
theorem not_contains_of_nearest? (hmiddle : i.Mem i.middle) {tie : Tie} {step : Nat}
    (hstep : 0 < step) (h : i.nearest? tie step = none) (n : Nat) :
    i.contains (n * step) = false := by
  -- the middle lies between the two multiples that are looked at
  have hq : i.middle / step * step ≤ i.middle := Nat.div_mul_le_self _ _
  have hq' : i.middle ≤ (i.middle / step + 1) * step := by
    have := Nat.div_add_mod' i.middle step
    have := Nat.mod_lt i.middle hstep
    rw [Nat.add_mul, Nat.one_mul]
    omega
  unfold nearest? at h
  dsimp only at h
  split at h
  · cases h
  · cases h
  next hbelow habove =>
    rw [← Bool.not_eq_true, contains_iff] at hbelow habove ⊢
    -- any multiple is beyond one of the neighbours, and an interval has no gap
    intro hn
    obtain hlt | hle := Nat.lt_or_ge (i.middle / step) n
    · refine habove (hmiddle.of_le_of_le hn ?_ ?_)
      · exact_mod_cast hq'
      · exact_mod_cast Nat.mul_le_mul_right step hlt
    · refine hbelow (hn.of_le_of_le hmiddle ?_ ?_)
      · exact_mod_cast Nat.mul_le_mul_right step hle
      · exact_mod_cast hq
  · -- with both neighbours inside one of them is always taken
    split at h
    · cases h
    split at h
    · cases h
    cases tie <;> cases h

end RoundingInterval

/-! ### Numbers in their intervals -/

variable {f : Format} {x : Binary f}

namespace Binary

/-- The significand of a number, and its shift if it has all its digits. -/
theorem significand_spec (x : Binary f) (hpos : 0 < x.magnitude) :
    0 < x.significand ∧ (0 < x.shift → f.hidden ≤ x.significand) ∧
      (f.hidden ≤ x.magnitude → f.hidden ≤ x.significand) := by
  -- with the hidden digit the significand has all its digits
  have hnormal : f.hidden ≤ x.magnitude → f.hidden ≤ x.significand := by
    intro hle
    have hdiv : 1 ≤ x.magnitude / f.hidden := (Nat.one_le_div_iff f.hidden_pos).2 hle
    have hmul : x.magnitude / f.hidden * f.hidden ≤ x.magnitude := Nat.div_mul_le_self _ _
    have hsub : (x.magnitude / f.hidden - 1) * f.hidden =
        x.magnitude / f.hidden * f.hidden - f.hidden := by rw [Nat.sub_mul, Nat.one_mul]
    have hone : 1 * f.hidden ≤ x.magnitude / f.hidden * f.hidden :=
      Nat.mul_le_mul_right _ hdiv
    unfold significand shift
    omega
  have hfull : f.hidden ≤ x.magnitude ∨ x.shift = 0 ∧ x.significand = x.magnitude := by
    refine (Nat.lt_or_ge x.magnitude f.hidden).symm.imp_right fun hlt => ?_
    have hshift : x.shift = 0 := by rw [shift, Nat.div_eq_of_lt hlt]
    exact ⟨hshift, by rw [significand, hshift, Nat.zero_mul, Nat.sub_zero]⟩
  -- otherwise there is no shift, and the significand is the number itself
  obtain hle | ⟨hshift, hsig⟩ := hfull
  · exact ⟨f.hidden_pos.trans_le (hnormal hle), fun _ => hnormal hle, hnormal⟩
  · exact ⟨hsig ▸ hpos, fun hlt => absurd hshift hlt.ne', hnormal⟩

theorem middle_eq (x : Binary f) : x.interval.middle = 4 * x.units := by
  change 4 * x.significand * 2 ^ x.shift = 4 * (x.significand * 2 ^ x.shift)
  ring

/-- **The ends of an interval** are at most half a digit from its middle, and at least a quarter. -/
theorem interval_spec (x : Binary f) (hpos : 0 < x.magnitude) :
    x.interval.low + 2 ^ x.shift ≤ x.interval.middle ∧
      x.interval.middle ≤ x.interval.low + 2 * 2 ^ x.shift ∧
      x.interval.middle + 2 * 2 ^ x.shift = x.interval.high := by
  obtain ⟨hsig, -⟩ := x.significand_spec hpos
  -- the lower end is one quarter below the middle or two
  obtain ⟨below, hbelow, hlow⟩ : ∃ below : Nat, (below = 1 ∨ below = 2) ∧
      x.interval.low = (4 * x.significand - below) * 2 ^ x.shift := by
    by_cases hgap : x.significand = f.hidden ∧ 0 < x.shift
    · exact ⟨1, .inl rfl, by simp [interval, hgap]⟩
    · refine ⟨2, .inr rfl, ?_⟩
      simp only [interval, Bool.and_eq_true, decide_eq_true_eq, if_neg hgap]
      rfl
  have hmiddle : x.interval.middle = 4 * x.significand * 2 ^ x.shift := rfl
  have hhigh : x.interval.high = (4 * x.significand + 2) * 2 ^ x.shift := rfl
  have hsplit : 4 * x.significand * 2 ^ x.shift =
      (4 * x.significand - below) * 2 ^ x.shift + below * 2 ^ x.shift := by
    rw [← Nat.add_mul, Nat.sub_add_cancel (by omega)]
  rw [hlow, hmiddle, hhigh, Nat.add_mul]
  obtain rfl | rfl := hbelow <;> omega

theorem mem_middle (x : Binary f) (hpos : 0 < x.magnitude) :
    x.interval.Mem x.interval.middle := by
  obtain ⟨hlow, -, hhigh⟩ := x.interval_spec hpos
  have hpow := Nat.two_pow_pos x.shift
  refine ⟨?_, ?_, fun _ => ⟨?_, ?_⟩⟩
  · exact_mod_cast (by omega : x.interval.low ≤ x.interval.middle)
  · exact_mod_cast (by omega : x.interval.middle ≤ x.interval.high)
  · exact_mod_cast (by omega : x.interval.low ≠ x.interval.middle)
  · exact_mod_cast (by omega : x.interval.middle ≠ x.interval.high)

end Binary

/-! ### The search -/

/-- **The shortest form as a number.** It need not be the number that it is a form of, but lies in
the interval of what is rounded to it. -/
def shortestValue (tie : Tie) (x : Binary f) : ℚ :=
  (shortest tie x).1 * 10 ^ (shortest tie x).2

/-- The measure of rounding intervals: four to the unit. -/
def quarters (f : Format) : ℚ := 4 * 2 ^ f.unitExponent

theorem natPow_pos {b : Nat} (hb : 0 < b) (n : Nat) : 0 < Nat.pow b n :=
  Nat.pow_pos hb

theorem ten_pow_pos (n : Nat) : 0 < Nat.pow 10 n :=
  natPow_pos (by decide) n

/-- The formats with units that are coarser than the finest power of ten that is tried. -/
def Format.IsFine (f : Format) : Prop :=
  4 * Nat.pow 2 f.unitExponent ≤ Nat.pow 10 finestPower

theorem Format.isFine_double : Format.double.IsFine :=
  Nat.le_of_ble_eq_true (by decide +kernel)

/-- What the search asks of a multiple, said of the number itself. The search works on naturals,
with the interval scaled so that all powers of ten that it tries are whole. -/
theorem contains_scale_iff {i : RoundingInterval} {n k : Nat} :
    (i.scale (Nat.pow 10 finestPower)).contains
        (n * (Nat.pow 10 k * (4 * Nat.pow 2 f.unitExponent))) = true ↔
      i.Mem (quarters f * (n * 10 ^ ((k : Int) - finestPower))) := by
  rw [RoundingInterval.contains_iff,
    ← RoundingInterval.mem_scale_iff (i := i) (ten_pow_pos finestPower)]
  -- the scale takes the negative powers of ten away
  have hcast : ((n * (Nat.pow 10 k * (4 * Nat.pow 2 f.unitExponent)) : Nat) : ℚ) =
      quarters f * (n * 10 ^ ((k : Int) - finestPower)) * (Nat.pow 10 finestPower : Nat) := by
    simp only [Nat.pow_eq, Nat.cast_mul, Nat.cast_pow, Nat.cast_ofNat, quarters]
    rw [zpow_sub₀ (by norm_num), zpow_natCast, zpow_natCast]
    field_simp
  rw [hcast]

/-- The greatest number with a result, in a search from above. -/
theorem exists_of_findSome?_reverse {α : Type} {search : Nat → Option α} {n k : Nat} (hk : k < n)
    (hfound : search k ≠ none) :
    ∃ k a, (List.range n).reverse.findSome? search = some a ∧ search k = some a ∧
      ∀ k' < n, k < k' → search k' = none := by
  -- something is found, at the latest at the given number
  cases hresult : (List.range n).reverse.findSome? search with
  | none =>
    rw [List.findSome?_eq_none_iff] at hresult
    exact absurd (hresult k (List.mem_reverse.2 (List.mem_range.2 hk))) hfound
  | some a =>
    obtain ⟨before, k, after, hlist, hka, hbefore⟩ := List.findSome?_eq_some_iff.1 hresult
    refine ⟨k, a, rfl, hka, fun k' hk' hlt => hbefore k' ?_⟩
    have hmem : k' ∈ before ++ k :: after := by
      rw [← hlist, List.mem_reverse, List.mem_range]
      exact hk'
    -- what comes behind is smaller
    have hsorted : (before ++ k :: after).Pairwise (· > ·) := by
      rw [← hlist, List.pairwise_reverse]
      exact List.pairwise_lt_range
    rw [List.mem_append, List.mem_cons] at hmem
    refine hmem.resolve_right ?_
    rintro (rfl | hafter)
    · exact lt_irrefl _ hlt
    · have hrest := (List.pairwise_append.1 hsorted).2.1
      exact absurd ((List.pairwise_cons.1 hrest).1 k' hafter) hlt.not_gt

/-- A step that is not coarser than the measure of an interval has a multiple in it, because the
middle is a whole measure away from both ends. -/
theorem exists_contains_scale {i : RoundingInterval} (hlow : i.low < i.middle)
    (hhigh : i.middle < i.high) {scale step : Nat} (hstep : 0 < step) (hle : step ≤ scale) :
    ∃ n, (i.scale scale).contains (n * step) = true := by
  -- the multiple just below the middle is less than a step away
  have hfloor : i.middle * scale / step * step ≤ i.middle * scale := Nat.div_mul_le_self _ _
  have hceil : i.middle * scale < i.middle * scale / step * step + step :=
    Nat.lt_div_mul_add hstep
  have hlow' : (i.low + 1) * scale ≤ i.middle * scale := Nat.mul_le_mul_right scale hlow
  have hhigh' : (i.middle + 1) * scale ≤ i.high * scale := Nat.mul_le_mul_right scale hhigh
  rw [Nat.add_mul, Nat.one_mul] at hlow' hhigh'
  refine ⟨i.middle * scale / step, RoundingInterval.contains_of_lt_of_lt ?_ ?_⟩
  · change i.low * scale < _
    omega
  · change _ < i.high * scale
    omega

/-- **What the search finds:** a number in the interval, at the coarsest power of ten. -/
theorem shortest_spec (tie : Tie) (x : Binary f) (hpos : 0 < x.magnitude)
    (hfine : f.IsFine) :
    ∃ d k : Nat, shortest tie x = (d, (k : Int) - finestPower) ∧
      x.interval.Mem (quarters f * (d * 10 ^ ((k : Int) - finestPower))) ∧
      ∀ k' < powerCount, k < k' → ∀ n : Nat,
        ¬ x.interval.Mem (quarters f * (n * 10 ^ ((k' : Int) - finestPower))) := by
  -- the middle is in the interval, scaled or not
  have hmiddle : (x.interval.scale (Nat.pow 10 finestPower)).Mem
      (x.interval.scale (Nat.pow 10 finestPower)).middle := by
    have hscaled := (RoundingInterval.mem_scale_iff (ten_pow_pos finestPower)).2
      (x.mem_middle hpos)
    rwa [← Nat.cast_mul] at hscaled
  have hstep : ∀ k, 0 < Nat.pow 10 k * (4 * Nat.pow 2 f.unitExponent) := fun k =>
    Nat.mul_pos (ten_pow_pos k) (Nat.mul_pos (by decide) (natPow_pos (by decide) _))
  set search : Nat → Option (Nat × Int) := fun k =>
    ((x.interval.scale (Nat.pow 10 finestPower)).nearest? tie
      (Nat.pow 10 k * (4 * Nat.pow 2 f.unitExponent))).map fun d =>
        (d, (k : Int) - (finestPower : Int)) with hsearch
  -- what is not found at a power has no multiple there
  have hnone : ∀ k, search k = none → ∀ n : Nat,
      ¬ x.interval.Mem (quarters f * (n * 10 ^ ((k : Int) - finestPower))) := by
    intro k hk n hmem
    have hnot := RoundingInterval.not_contains_of_nearest? hmiddle (hstep k)
      (Option.map_eq_none_iff.1 hk) n
    rw [contains_scale_iff.2 hmem] at hnot
    cases hnot
  -- the finest power is finer than every interval
  have hzero : search 0 ≠ none := by
    intro hk
    obtain ⟨hlow, -, hhigh⟩ := x.interval_spec hpos
    have hpow := Nat.two_pow_pos x.shift
    have hfinest : Nat.pow 10 0 * (4 * Nat.pow 2 f.unitExponent) ≤ Nat.pow 10 finestPower :=
      (Nat.one_mul _).le.trans hfine
    obtain ⟨n, hn⟩ := exists_contains_scale (i := x.interval) (by omega) (by omega) (hstep 0)
      hfinest
    exact hnone 0 hk n (contains_scale_iff.1 hn)
  -- searching from above, what is found first is at the coarsest power
  obtain ⟨k, result, hfound, hk, hcoarser⟩ :=
    exists_of_findSome?_reverse (by decide : 0 < powerCount) hzero
  obtain ⟨d, hd, rfl⟩ := Option.map_eq_some_iff.1 hk
  have hshortest : shortest tie x =
      ((List.range powerCount).reverse.findSome? search).getD (0, 0) := rfl
  refine ⟨d, k, ?_, contains_scale_iff.1 (RoundingInterval.contains_of_nearest? hd),
    fun k' hk' hlt => hnone k' (hcoarser k' hk' hlt)⟩
  rw [hshortest, hfound]
  rfl

/-! ### What the shortest form keeps -/

theorem quarters_pos (f : Format) : 0 < quarters f := by
  unfold quarters
  positivity

/-- A number in an interval is half a digit from the middle at most, so any two are a digit
apart. -/
theorem abs_sub_middle_le (hpos : 0 < x.magnitude) {r : ℚ} (hr : x.interval.Mem r) :
    |r - x.interval.middle| ≤ 2 * 2 ^ x.shift := by
  obtain ⟨-, hlow, hhigh⟩ := x.interval_spec hpos
  have hlow' : (x.interval.middle : ℚ) ≤ x.interval.low + 2 * 2 ^ x.shift := by
    exact_mod_cast hlow
  have hhigh' : (x.interval.middle + 2 * 2 ^ x.shift : ℚ) = x.interval.high := by
    exact_mod_cast hhigh
  rw [abs_le]
  constructor
  · linarith [hr.1]
  · linarith [hr.2.1]

/-- **The distance of the shortest form:** half of the last digit of the number. -/
theorem abs_shortestValue_sub_le (hf : f.IsProper) (tie : Tie) (x : Binary f)
    (hpos : 0 < x.magnitude) (hfine : f.IsFine) :
    |shortestValue tie x - x.value| ≤
      max (x.value / 2 ^ f.precision) (1 / 2 ^ (f.unitExponent + 1)) := by
  obtain ⟨d, k, hshortest, hmem, -⟩ := shortest_spec tie x hpos hfine
  have hvalue : x.value = x.units / 2 ^ f.unitExponent := rfl
  have hmiddle := abs_sub_middle_le hpos hmem
  -- from quarters of a unit to the numbers themselves
  have hhalf : |shortestValue tie x - x.value| ≤ (2 : ℚ) ^ x.shift / 2 ^ (f.unitExponent + 1) := by
    have hdiff : quarters f * (d * 10 ^ ((k : Int) - finestPower)) - x.interval.middle =
        quarters f * (shortestValue tie x - x.value) := by
      rw [shortestValue, hshortest, x.middle_eq, hvalue, quarters]
      push_cast
      field_simp
    have hbound : (2 * 2 ^ x.shift : ℚ) =
        quarters f * (2 ^ x.shift / 2 ^ (f.unitExponent + 1)) := by
      rw [quarters, pow_succ]
      field_simp
      norm_num
    rw [hdiff, hbound, abs_mul, abs_of_pos (quarters_pos f)] at hmiddle
    exact le_of_mul_le_mul_left hmiddle (quarters_pos f)
  -- half a digit is no more than the precision allows, or it is half of the smallest unit
  refine hhalf.trans ?_
  obtain ⟨-, hfull, -⟩ := x.significand_spec hpos
  obtain hzero | hshift := Nat.eq_zero_or_pos x.shift
  · exact le_max_of_le_right (by rw [hzero, pow_zero])
  · -- a number with all its digits is so many times greater than the last one
    refine le_max_of_le_left ?_
    have hsig : (f.hidden : ℚ) ≤ x.significand := by exact_mod_cast hfull hshift
    have htwo : (2 : ℚ) ^ f.precision = 2 * f.hidden := by exact_mod_cast hf.two_mul_hidden.symm
    have hhidden : (0 : ℚ) < f.hidden := by exact_mod_cast f.hidden_pos
    have hunits : (x.units : ℚ) = x.significand * 2 ^ x.shift := by
      exact_mod_cast (rfl : x.units = x.significand * 2 ^ x.shift)
    rw [hvalue, hunits, htwo, pow_succ, div_div, div_le_div_iff₀ (by positivity) (by positivity)]
    have hpow : (0 : ℚ) ≤ 2 ^ x.shift * 2 ^ f.unitExponent * 2 := by positivity
    nlinarith [mul_le_mul_of_nonneg_left hsig hpow]

/-- The shortest form is a multiple of every power of ten that has a multiple in the interval,
because the search goes to coarser powers first and stops no later than there. -/
theorem exists_shortestValue_eq (tie : Tie) (x : Binary f) (hpos : 0 < x.magnitude)
    (hfine : f.IsFine) {t : Nat} {j : Int} (hlow : -(finestPower : Int) ≤ j)
    (hhigh : j < powerCount - finestPower) (hmem : x.interval.Mem (quarters f * (t * 10 ^ j))) :
    ∃ a : Nat, shortestValue tie x = a * 10 ^ j ∧ x.interval.Mem (quarters f * (a * 10 ^ j)) := by
  obtain ⟨d, k, hshortest, hfound, hcoarsest⟩ := shortest_spec tie x hpos hfine
  -- the search has not gone past the power
  obtain ⟨i, hi⟩ : ∃ i : Nat, (i : Int) = j + finestPower := ⟨(j + finestPower).toNat, by omega⟩
  have hik : i ≤ k := by
    by_contra hlt
    refine hcoarsest i (by omega) (by omega) t ?_
    rwa [hi, Int.add_sub_cancel]
  -- a multiple of a coarser power is one of the finer power too
  have ha : (d * 10 ^ ((k : Int) - finestPower) : ℚ) = (d * 10 ^ (k - i) : Nat) * 10 ^ j := by
    have hexp : (k : Int) - finestPower = (k - i : Nat) + j := by omega
    rw [hexp, zpow_add₀ (by norm_num), zpow_natCast]
    push_cast
    ring
  refine ⟨d * 10 ^ (k - i), ?_, ha ▸ hfound⟩
  rw [shortestValue, hshortest, ← ha]

/-- Where two multiples of a step are in an interval, the step is not wider than it. -/
theorem le_of_mem_of_mem (hpos : 0 < x.magnitude) {step : ℚ} (hstep : 0 < step) {a t : Nat}
    (hne : a ≠ t) (ha : x.interval.Mem (a * step)) (ht : x.interval.Mem (t * step)) :
    step ≤ 4 * 2 ^ x.shift := by
  have ha' := abs_sub_middle_le hpos ha
  have ht' := abs_sub_middle_le hpos ht
  -- different multiples are a step apart at least
  have hone : (1 : ℚ) ≤ |(a : ℚ) - t| := by
    have : (1 : Int) ≤ |(a : Int) - t| := Int.one_le_abs (by omega)
    exact_mod_cast this
  calc step ≤ |(a : ℚ) - t| * step := le_mul_of_one_le_left hstep.le hone
    _ = |((a : ℚ) - t) * step| := by rw [abs_mul, abs_of_pos hstep]
    _ = |a * step - t * step| := congrArg abs (by ring)
    _ ≤ |a * step - x.interval.middle| + |x.interval.middle - t * step| := abs_sub_le _ _ _
    -- each is half a digit from the middle
    _ ≤ 4 * 2 ^ x.shift := by
        rw [abs_sub_comm (x.interval.middle : ℚ)]
        linarith

/-- **Decimal numbers of fifteen digits come back.** Both the number and the shortest form are
multiples of the number's own power of ten, which is wider than the interval. -/
theorem shortestValue_eq_of_mem (tie : Tie) (x : Double)
    (hnormal : Format.double.hidden ≤ x.magnitude) {t : Nat} (ht : t < 10 ^ 15) {j : Int}
    (hlow : -(finestPower : Int) ≤ j) (hhigh : j < powerCount - finestPower)
    (hmem : x.interval.Mem (quarters .double * (t * 10 ^ j))) :
    shortestValue tie x = t * 10 ^ j := by
  have hpos : 0 < x.magnitude := Format.double.hidden_pos.trans_le hnormal
  obtain ⟨a, hvalue, ha⟩ :=
    exists_shortestValue_eq tie x hpos Format.isFine_double hlow hhigh hmem
  -- the two are multiples of one step, and equal as soon as they are the same multiple
  suffices hat : a = t by rw [hvalue, hat]
  by_contra hne
  have hstep : 0 < quarters .double * 10 ^ j :=
    mul_pos (quarters_pos _) (zpow_pos (by norm_num) j)
  rw [mul_left_comm] at ha hmem
  have hwide := le_of_mem_of_mem hpos hstep hne ha hmem
  have hmem' := abs_sub_middle_le hpos hmem
  generalize quarters Format.double * 10 ^ j = step at hstep hwide hmem'
  -- fifteen digits are fewer than the number has
  have hdigit : (0 : ℚ) < 2 ^ x.shift := by positivity
  have hsig : 2 ^ 52 ≤ x.significand := (x.significand_spec hpos).2.2 hnormal
  have hmiddle : (x.interval.middle : ℚ) = 4 * x.significand * 2 ^ x.shift := by
    exact_mod_cast (rfl : x.interval.middle = 4 * x.significand * 2 ^ x.shift)
  have hlarge : (4 * x.significand - 2) * 2 ^ x.shift ≤ 4 * t * (2 : ℚ) ^ x.shift := by
    have hge := (abs_le.1 hmem').1
    have hle := mul_le_mul_of_nonneg_left hwide ((Nat.cast_nonneg t : (0 : ℚ) ≤ t))
    rw [hmiddle] at hge
    linarith
  have hfew : (4 * x.significand : ℚ) ≤ 4 * t + 2 := by
    linarith [le_of_mul_le_mul_right hlarge hdigit]
  have hfew' : 4 * x.significand ≤ 4 * t + 2 := by exact_mod_cast hfew
  omega

end QueryGateway.Number
