import Mathlib.Algebra.Order.Field.Rat
import Mathlib.Data.List.DropRight
import Mathlib.Tactic.Ring
import QueryGateway.Postgres.Numeric
import QueryGateway.Proofs.Number.Decimal

/-!
# Groups of digits

A decimal travels as groups of four digits. What digits are worth depends on the power that the
first of them counts (`placeValue`), in base ten and in base ten thousand alike, so that regrouping
is a law about lists of digits: four digits are one group (`placeValue_chunks`), and a first group
that holds fewer brings the others in line with the point (`placeValue_firstGroup`).

From this a numeric is worth the decimal that it was made of (`Numeric.value_ofDecimal`), whatever
the remainder of the point and the sign of the weight. How many groups it has is a matter of what it
is worth: as many as are needed to reach down to its last digit (`Numeric.length_groups_le_iff`),
for a last group is never zero.
-/

namespace QueryGateway.Postgres

open Number

/-! ### Digits and places -/

/-- The natural number of digits, the most significant first. -/
def wholeValue (base : ℕ) (ds : List ℕ) : ℕ :=
  ds.foldl (fun n d => base * n + d) 0

/-- **What digits are worth** if the first of them counts the given power of the base. -/
def placeValue (base : ℕ) : List ℕ → ℤ → ℚ
  | [], _ => 0
  | d :: ds, power => d * (base : ℚ) ^ power + placeValue base ds (power - 1)

section Places

variable {base : ℕ}

theorem wholeValue_append_singleton (ds : List ℕ) (d : ℕ) :
    wholeValue base (ds ++ [d]) = base * wholeValue base ds + d := by
  rw [wholeValue, List.foldl_append]
  rfl

/-- Digits behind others count lower powers, by the number of those before. -/
theorem placeValue_append (ds es : List ℕ) (power : ℤ) :
    placeValue base (ds ++ es) power =
      placeValue base ds power + placeValue base es (power - ds.length) := by
  induction ds generalizing power with
  | nil => simp [placeValue]
  | cons d ds ih =>
    -- one step of the power down is the step that the length goes up
    have hpower : power - 1 - (ds.length : ℤ) = power - ((d :: ds).length : ℤ) := by
      rw [List.length_cons]
      push_cast
      ring
    rw [List.cons_append, placeValue, placeValue, ih, hpower, add_assoc]

theorem placeValue_replicate_zero (k : ℕ) (power : ℤ) :
    placeValue base (List.replicate k 0) power = 0 := by
  induction k generalizing power with
  | zero => rfl
  | succ k ih => rw [List.replicate_succ, placeValue, ih, Nat.cast_zero, zero_mul, add_zero]

/-- Digits are worth their natural number at the place of the last. -/
theorem placeValue_eq (hbase : base ≠ 0) (ds : List ℕ) (power : ℤ) :
    placeValue base ds power = wholeValue base ds * (base : ℚ) ^ (power + 1 - ds.length) := by
  have hne : (base : ℚ) ≠ 0 := Nat.cast_ne_zero.2 hbase
  induction ds using List.reverseRecOn with
  | nil => simp [placeValue, wholeValue]
  | append_singleton ds d ih =>
    -- the digit at the end raises what stands before it by one power
    have hfront : power + 1 - (ds.length : ℤ) = (power - ds.length) + 1 := by ring
    have hlast : power + 1 - ((ds ++ [d]).length : ℤ) = power - ds.length := by
      rw [List.length_append, List.length_singleton]
      push_cast
      ring
    rw [placeValue_append, ih, hlast, hfront, zpow_add_one₀ hne, wholeValue_append_singleton,
      placeValue, placeValue]
    push_cast
    ring

/-- So many digits are worth less than the power of their base. -/
theorem wholeValue_lt {ds : List ℕ} (h : ∀ d ∈ ds, d < base) :
    wholeValue base ds < base ^ ds.length := by
  induction ds using List.reverseRecOn with
  | nil => simp [wholeValue]
  | append_singleton ds d ih =>
    have hlast : d < base := h d (by simp)
    have hfront : wholeValue base ds + 1 ≤ base ^ ds.length :=
      ih fun e he => h e (List.mem_append_left [d] he)
    rw [wholeValue_append_singleton, List.length_append, List.length_singleton]
    -- one more than the digits before is at most the power, so there is room for a last digit
    calc base * wholeValue base ds + d
        < base * (wholeValue base ds + 1) := by rw [Nat.mul_add_one]; omega
      _ ≤ base * base ^ ds.length := Nat.mul_le_mul_left base hfront
      _ = base ^ (ds.length + 1) := (Nat.pow_succ').symm

end Places

/-! ### Groups -/

/-- Digits that are filled with zeros up to a width. -/
theorem wholeValue_filled {ds : List ℕ} {size : ℕ} (hsize : ds.length ≤ size) (power : ℤ) :
    ((wholeValue 10 ds * 10 ^ (size - ds.length) : ℕ) : ℚ) * 10 ^ (power + 1 - size) =
      placeValue 10 ds power := by
  have hpower : power + 1 - (ds.length : ℤ) =
      ((size - ds.length : ℕ) : ℤ) + (power + 1 - size) := by
    omega
  rw [placeValue_eq (by decide), hpower, Nat.cast_ofNat, zpow_add₀ (by norm_num), zpow_natCast]
  push_cast
  ring

theorem tenThousand_zpow (power : ℤ) : ((10000 : ℕ) : ℚ) ^ power = 10 ^ (4 * power) := by
  rw [zpow_mul]
  norm_num

theorem placeValue_groupValue {ds : List ℕ} (h : ds.length ≤ 4) (power : ℤ) :
    (groupValue ds : ℚ) * ((10000 : ℕ) : ℚ) ^ power = placeValue 10 ds (4 * power + 3) := by
  have hpower : 4 * power + 3 + 1 - ((4 : ℕ) : ℤ) = 4 * power := by
    push_cast
    ring
  rw [← wholeValue_filled h, hpower, tenThousand_zpow]
  rfl

theorem length_le_of_not_four {ds : List ℕ}
    (h : ∀ a b c d rest, ds = a :: b :: c :: d :: rest → False) : ds.length ≤ 4 := by
  rcases ds with _ | ⟨a, _ | ⟨b, _ | ⟨c, _ | ⟨d, rest⟩⟩⟩⟩
  · simp
  · simp
  · simp
  · simp
  · exact (h a b c d rest rfl).elim

/-- **Four digits are one group.** -/
theorem placeValue_chunks (ds : List ℕ) (power : ℤ) :
    placeValue 10000 ((chunks ds).map groupValue) power = placeValue 10 ds (4 * power + 3) := by
  fun_induction chunks ds generalizing power with
  -- the digits of the group at their own power, and the rest four powers lower
  | case1 a b c d rest ih =>
    have hrest : 4 * power + 3 - (([a, b, c, d] : List ℕ).length : ℤ) = 4 * (power - 1) + 3 := by
      simp only [List.length_cons, List.length_nil]
      push_cast
      ring
    have hfour : ([a, b, c, d] : List ℕ).length ≤ 4 := Nat.le_refl 4
    have hsplit : a :: b :: c :: d :: rest = [a, b, c, d] ++ rest := rfl
    rw [hsplit, placeValue_append, hrest, ← ih, ← placeValue_groupValue hfour]
    rfl
  | case2 => rfl
  | case3 rest hfour hne =>
    have hshort : rest.length ≤ 4 := length_le_of_not_four hfour
    rw [List.map_singleton, ← placeValue_groupValue hshort, placeValue, placeValue, add_zero]

/-- A first group holds the first digits, as many as it is meant for. -/
theorem placeValue_firstGroup {size : ℕ} (ds : List ℕ) (power : ℤ) :
    placeValue 10000 (firstGroup size ds) power =
      placeValue 10 (ds.take size) (4 * power + size - 1) := by
  -- no digits are left over, or they stand in one group of their own
  rw [firstGroup]
  split
  · next hzero => rw [hzero, List.take_zero, placeValue, placeValue]
  · have hpower : 4 * power + (size : ℤ) - 1 + 1 - size = 4 * power := by ring
    have htake : (ds.take size).length ≤ size := List.length_take_le size ds
    rw [← wholeValue_filled htake, hpower, placeValue, placeValue, add_zero, tenThousand_zpow]
    rfl

/-- **The groups of digits** whose first is the given place before the point. A first group of the
digits that the others leave over puts these in line with the point. -/
theorem placeValue_groups (ds : List ℕ) (place : ℤ) :
    placeValue 10000 (firstGroup (place % 4).toNat ds ++
        (chunks (ds.drop (place % 4).toNat)).map groupValue) ((place - 1) / 4) =
      placeValue 10 ds (place - 1) := by
  -- how many digits are left over is a residue, taken as a natural number
  obtain ⟨size, hsize⟩ : ∃ size : ℕ, (size : ℤ) = place % 4 := ⟨(place % 4).toNat, by omega⟩
  have htoNat : (place % 4).toNat = size := by omega
  rw [htoNat, placeValue_append, placeValue_chunks, placeValue_firstGroup]
  conv_rhs => rw [← List.take_append_drop size ds, placeValue_append]
  by_cases hzero : size = 0
  · -- the point stands between groups
    have hdrop : 4 * ((place - 1) / 4) + 3 = place - 1 := by omega
    subst hzero
    simp only [firstGroup, if_true, List.take_zero, List.drop_zero, List.length_nil, placeValue,
      Nat.cast_zero, sub_zero, hdrop]
  · have hfirst : (firstGroup size ds).length = 1 := by
      rw [firstGroup, if_neg hzero]
      rfl
    have htake : 4 * ((place - 1) / 4) + (size : ℤ) - 1 = place - 1 := by omega
    rw [hfirst, htake]
    by_cases hlong : size ≤ ds.length
    · have hdrop : 4 * ((place - 1) / 4 - ((1 : ℕ) : ℤ)) + 3 = place - 1 - size := by omega
      rw [List.length_take_of_le hlong, hdrop]
    · -- the first group is the only one
      rw [List.drop_eq_nil_of_le (by omega), placeValue, placeValue]

theorem dropTrailingZeros_eq (groups : List ℕ) :
    dropTrailingZeros groups = groups.rdropWhile (· = 0) := rfl

/-- Groups of zeros at the end are worth nothing. -/
theorem placeValue_dropTrailingZeros (groups : List ℕ) (power : ℤ) :
    placeValue 10000 (dropTrailingZeros groups) power = placeValue 10000 groups power := by
  -- what is dropped is zeros alone, and zeros at the end count nothing
  have hzeros : groups.rtakeWhile (· = 0) =
      List.replicate (groups.rtakeWhile (· = 0)).length 0 := by
    rw [List.eq_replicate_iff]
    refine ⟨rfl, fun g hg => ?_⟩
    have hzero := List.mem_rtakeWhile_imp hg
    exact of_decide_eq_true hzero
  have hsplit : groups.rdropWhile (· = 0) ++ groups.rtakeWhile (· = 0) = groups :=
    List.rdropWhile_append_rtakeWhile
  conv_rhs => rw [← hsplit, placeValue_append, hzeros, placeValue_replicate_zero, add_zero]
  rw [dropTrailingZeros_eq]

theorem mem_of_mem_dropTrailingZeros {groups : List ℕ} {g : ℕ} (h : g ∈ dropTrailingZeros groups) :
    g ∈ groups :=
  (List.rdropWhile_prefix _ groups).subset h

/-- A last group is not zero. -/
theorem ne_zero_of_dropTrailingZeros {groups front : List ℕ} {g : ℕ}
    (h : dropTrailingZeros groups = front ++ [g]) : g ≠ 0 := by
  rw [dropTrailingZeros_eq] at h
  have hne : groups.rdropWhile (· = 0) ≠ [] := by simp [h]
  have hlast := List.rdropWhile_last_not (· = 0) groups hne
  simpa only [h, List.getLast_append_singleton, decide_eq_true_eq] using hlast

/-! ### Numerics -/

namespace Numeric

/-- **The value of a numeric:** what its groups are worth in base ten thousand, with its sign. -/
def value (n : Numeric) : ℚ :=
  (if n.isNegative then -1 else 1) * placeValue 10000 n.groups n.weight

/-- How many digits of a decimal stand before the point. Below zero, so many zeros stand between the
point and the first digit. -/
def point (d : Decimal) : ℤ :=
  (decimalDigits d.digits.natAbs).length - d.scale

/-- The weight is the group of the first digit, on both sides of the point. -/
theorem weight_ofDecimal (d : Decimal) : (ofDecimal d).weight = (point d - 1) / 4 := by
  change (if point d ≤ 0 then (point d).tdiv 4 - 1 else (point d - 1) / 4) = (point d - 1) / 4
  split
  · next hneg =>
    have htdiv : (point d).tdiv 4 = -(-point d / 4) := by
      rw [← Int.tdiv_eq_ediv_of_nonneg (by omega), Int.neg_tdiv, Int.neg_neg]
    rw [htdiv]
    omega
  · rfl

theorem wholeValue_decimalDigits (n : ℕ) : wholeValue 10 (decimalDigits n) = n := by
  rw [wholeValue, decimalDigits, List.foldl_map]
  exact Text.valueOfDigits_digits n

/-- **The groups of a decimal are worth it.** -/
theorem value_ofDecimal (d : Decimal) : (ofDecimal d).value = d.value := by
  -- without its sign a decimal is its digits at its scale, which the groups are worth too
  have hgroups : placeValue 10000 (ofDecimal d).groups (ofDecimal d).weight =
      d.digits.natAbs * 10 ^ (-d.scale) := by
    have hpower : point d - 1 + 1 - ((decimalDigits d.digits.natAbs).length : ℤ) = -d.scale := by
      rw [point]
      ring
    calc placeValue 10000 (ofDecimal d).groups (ofDecimal d).weight
        = placeValue 10 (decimalDigits d.digits.natAbs) (point d - 1) := by
          rw [weight_ofDecimal, ← placeValue_groups]
          exact placeValue_dropTrailingZeros _ _
      _ = d.digits.natAbs * 10 ^ (-d.scale) := by
          rw [placeValue_eq (by decide), wholeValue_decimalDigits, hpower, Nat.cast_ofNat]
  have hsign : (ofDecimal d).isNegative = decide (d.digits < 0) := rfl
  rw [value, hgroups, hsign, Decimal.value, ← mul_assoc]
  congr 1
  by_cases hneg : d.digits < 0
  · rw [Nat.cast_natAbs, abs_of_neg hneg, Int.cast_neg]
    simp [hneg]
  · rw [Nat.cast_natAbs, abs_of_nonneg (Int.not_lt.1 hneg)]
    simp [hneg]

/-- Five thousandths are one group, of which the last digit is filled in. -/
example : ofDecimal ⟨5, 3⟩ = ⟨false, [50], -1, 3⟩ := by decide

end Numeric

/-! ### The count of groups -/

theorem decimalDigits_lt (n : ℕ) : ∀ d ∈ decimalDigits n, d < 10 := by
  intro d hd
  obtain ⟨c, hc, rfl⟩ := List.mem_map.1 hd
  exact Text.digitValue_lt ((Text.isDigits_digits n).isDigit c hc)

theorem wholeValue_filled_lt {ds : List ℕ} {size : ℕ} (hds : ∀ d ∈ ds, d < 10)
    (hsize : ds.length ≤ size) : wholeValue 10 ds * 10 ^ (size - ds.length) < 10 ^ size := by
  calc wholeValue 10 ds * 10 ^ (size - ds.length)
      < 10 ^ ds.length * 10 ^ (size - ds.length) :=
        Nat.mul_lt_mul_of_pos_right (wholeValue_lt hds) (Nat.pow_pos (by decide))
    _ = 10 ^ size := by rw [← Nat.pow_add, Nat.add_sub_cancel' hsize]

/-- Pieces have at most four digits, each of them a digit of the list. -/
theorem mem_chunks {ds : List ℕ} : ∀ chunk ∈ chunks ds, chunk.length ≤ 4 ∧ ∀ d ∈ chunk, d ∈ ds := by
  fun_induction chunks ds with
  | case1 a b c d rest ih =>
    intro chunk hchunk
    rcases List.mem_cons.1 hchunk with rfl | hchunk
    · exact ⟨Nat.le_refl 4, fun x hx => List.mem_append_left rest hx⟩
    · obtain ⟨hlen, hsub⟩ := ih chunk hchunk
      exact ⟨hlen, fun x hx => List.mem_append_right [a, b, c, d] (hsub x hx)⟩
  | case2 => exact fun chunk hchunk => absurd hchunk List.not_mem_nil
  | case3 rest hfour hne =>
    intro chunk hchunk
    obtain rfl := List.mem_singleton.1 hchunk
    exact ⟨length_le_of_not_four hfour, fun x hx => hx⟩

/-- Digits below ten make groups below ten thousand. -/
theorem groups_lt_of_digits (ds : List ℕ) (size : ℕ) (hsize : size ≤ 4) (hds : ∀ d ∈ ds, d < 10) :
    ∀ g ∈ firstGroup size ds ++ (chunks (ds.drop size)).map groupValue, g < 10000 := by
  rw [List.forall_mem_append]
  -- the first group, and then the others, each with at most four digits below ten
  constructor
  · rw [firstGroup]
    split
    · exact fun g hg => absurd hg List.not_mem_nil
    · intro g hg
      obtain rfl := List.mem_singleton.1 hg
      have hlt := wholeValue_filled_lt (fun d hd => hds d (List.mem_of_mem_take hd))
        (List.length_take_le size ds)
      exact hlt.trans_le (Nat.pow_le_pow_right (by decide) hsize)
  · intro g hg
    obtain ⟨chunk, hchunk, rfl⟩ := List.mem_map.1 hg
    obtain ⟨hlen, hsub⟩ := mem_chunks chunk hchunk
    exact wholeValue_filled_lt (fun d hd => hds d (List.mem_of_mem_drop (hsub d hd))) hlen

namespace Numeric

/-- **Groups have four digits.** -/
theorem groups_lt (d : Decimal) : ∀ g ∈ (ofDecimal d).groups, g < 10000 := by
  have hall := groups_lt_of_digits (decimalDigits d.digits.natAbs) (point d % 4).toNat (by omega)
    (decimalDigits_lt d.digits.natAbs)
  exact fun g hg => hall g (mem_of_mem_dropTrailingZeros hg)

/-- The natural number of the groups, with the sign. -/
def signedWhole (n : Numeric) : ℤ :=
  (if n.isNegative then -1 else 1) * wholeValue 10000 n.groups

theorem value_eq_signedWhole (d : Decimal) :
    d.value = (ofDecimal d).signedWhole *
      10000 ^ ((point d - 1) / 4 + 1 - (ofDecimal d).groups.length) := by
  rw [← value_ofDecimal, value, weight_ofDecimal, placeValue_eq (by decide), signedWhole]
  push_cast
  ring

/-- Whether so many groups, from the one of the first digit on, reach down to the last digit. -/
def ReachesIn (d : Decimal) (count : ℕ) : Prop :=
  ∃ m : ℤ, d.value = m * 10000 ^ ((point d - 1) / 4 + 1 - count)

/-- **There are as many groups as are needed** to reach the last digit. -/
theorem length_groups_le_iff (d : Decimal) (count : ℕ) :
    (ofDecimal d).groups.length ≤ count ↔ ReachesIn d count := by
  have hne : (10000 : ℚ) ≠ 0 := by norm_num
  have hvalue := value_eq_signedWhole d
  -- enough groups: the value is a whole number at the power of the last place allowed
  constructor
  · intro hle
    have hpower : (point d - 1) / 4 + 1 - ((ofDecimal d).groups.length : ℤ) =
        ((count - (ofDecimal d).groups.length : ℕ) : ℤ) + ((point d - 1) / 4 + 1 - count) := by
      omega
    refine ⟨(ofDecimal d).signedWhole * 10000 ^ (count - (ofDecimal d).groups.length), ?_⟩
    rw [hvalue, hpower, zpow_add₀ hne, zpow_natCast]
    push_cast
    ring
  · -- reached in fewer: then the last group would be zero, which was dropped
    rintro ⟨m, hm⟩
    by_contra hgt
    have hlt := groups_lt d
    rcases List.eq_nil_or_concat' (ofDecimal d).groups with hnil | ⟨front, g, hfront⟩
    · rw [hnil, List.length_nil] at hgt
      omega
    -- it is the last group, so it is not zero
    have hlast : g ≠ 0 := ne_zero_of_dropTrailingZeros hfront
    have hsmall : g < 10000 := hlt g (by rw [hfront]; simp)
    have hpower : (point d - 1) / 4 + 1 - (count : ℤ) =
        (((ofDecimal d).groups.length - count : ℕ) : ℤ) +
          ((point d - 1) / 4 + 1 - (ofDecimal d).groups.length) := by
      omega
    -- the groups would make a multiple of ten thousand, which the last one denies
    have hmultiple : (ofDecimal d).signedWhole =
        m * 10000 ^ ((ofDecimal d).groups.length - count) := by
      rw [hm, hpower, zpow_add₀ hne, ← mul_assoc, zpow_natCast] at hvalue
      exact_mod_cast (mul_right_cancel₀ (zpow_ne_zero _ hne) hvalue).symm
    have hdvd : (10000 : ℤ) ∣ (ofDecimal d).signedWhole := by
      rw [hmultiple]
      exact dvd_mul_of_dvd_right (dvd_pow_self _ (by omega)) m
    rw [signedWhole, hfront, wholeValue_append_singleton] at hdvd
    split at hdvd <;> omega

end Numeric

end QueryGateway.Postgres
