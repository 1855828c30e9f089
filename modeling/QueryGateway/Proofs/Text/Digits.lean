import Mathlib.Tactic.Ring
import QueryGateway.Text.Digits

/-!
# Digits and their numbers

Writing a number and reading it again. In base ten, runs of digits that stand side by side make one
number (`valueOfDigits_append`), and the digits of a number have it for their value
(`valueOfDigits_digits`). Digits of positive numbers do not begin with a zero. In base sixteen, the
digits have a fixed count and are worth the number if it fits (`hexNatural?_hexDigits`).
-/

namespace QueryGateway.Text

/-- A run of digits, at least one. -/
structure IsDigits (ds : List Char) : Prop where
  ne_nil : ds ≠ []
  isDigit : ∀ c ∈ ds, c.isDigit = true

theorem valueOfDigits_eq (cs : List Char) : valueOfDigits cs = Nat.ofDigitChars 10 cs 0 := rfl

theorem digitValue_lt {c : Char} (hc : c.isDigit = true) : digitValue c < 10 := by
  simp only [Char.isDigit, Bool.and_eq_true, decide_eq_true_eq, ge_iff_le] at hc
  have hle : c.toNat ≤ 57 := hc.2
  have hzero : '0'.toNat = 48 := rfl
  unfold digitValue
  omega

/-- **Digits side by side.** -/
theorem valueOfDigits_append (cs ds : List Char) :
    valueOfDigits (cs ++ ds) = valueOfDigits cs * 10 ^ ds.length + valueOfDigits ds := by
  simp only [valueOfDigits_eq]
  rw [Nat.ofDigitChars_append, Nat.ofDigitChars_eq_ofDigitChars_zero, Nat.mul_comm]

/-- **The digits of a number** are worth it. -/
@[simp] theorem valueOfDigits_digits (n : Nat) : valueOfDigits (digits n) = n :=
  Nat.ofDigitChars_ten_toDigits

@[simp] theorem valueOfDigits_replicate_zero (k : Nat) :
    valueOfDigits (List.replicate k '0') = 0 := by
  rw [valueOfDigits_eq, Nat.ofDigitChars_replicate_zero, Nat.mul_zero]

theorem isDigits_digits (n : Nat) : IsDigits (digits n) where
  ne_nil := Nat.toDigits_ne_nil
  isDigit := fun _ hc => Nat.isDigit_of_mem_toDigits (by decide) (by decide) hc

theorem isDigits_singleton {d : Char} (hd : d.isDigit = true) : IsDigits [d] where
  ne_nil := List.cons_ne_nil _ _
  isDigit := fun _ hc => List.mem_singleton.1 hc ▸ hd

/-- The digits of a positive number do not begin with a zero. -/
theorem head?_digits_ne {n : Nat} (hn : 0 < n) : (digits n).head? ≠ some '0' := by
  induction n using Nat.strongRecOn with
  | ind n ih =>
    unfold digits at ih ⊢
    obtain hlt | hge := Nat.lt_or_ge n 10
    · -- a single digit that is zero would be a zero
      rw [Nat.toDigits_of_lt_base hlt]
      intro h
      have hzero : n.digitChar = '0' := Option.some.inj h
      have hback := Nat.toNat_digitChar_sub_48_of_lt_ten hlt
      rw [hzero] at hback
      exact hn.ne hback
    · -- the first digit is that of a tenth of the number, which is not zero either
      have hhead := ih (n / 10) (by omega) (by omega)
      obtain ⟨c, cs, hcs⟩ :=
        List.exists_cons_of_ne_nil (Nat.toDigits_ne_nil : Nat.toDigits 10 (n / 10) ≠ [])
      rw [hcs] at hhead
      rwa [Nat.toDigits_of_base_le (by decide) hge, hcs]

namespace IsDigits

variable {ds es : List Char}

theorem append (hd : IsDigits ds) (he : ∀ c ∈ es, c.isDigit = true) : IsDigits (ds ++ es) where
  ne_nil := List.append_ne_nil_of_left_ne_nil hd.ne_nil es
  isDigit := fun c hc => (List.mem_append.1 hc).elim (hd.isDigit c) (he c)

theorem append_left (hd : ∀ c ∈ ds, c.isDigit = true) (he : IsDigits es) : IsDigits (ds ++ es) where
  ne_nil := List.append_ne_nil_of_right_ne_nil ds he.ne_nil
  isDigit := fun c hc => (List.mem_append.1 hc).elim (hd c) (he.isDigit c)

theorem head?_ne_sign (h : IsDigits ds) : ds.head? ≠ some '-' ∧ ds.head? ≠ some '+' := by
  constructor <;>
  · intro hhead
    have hdigit := h.isDigit _ (List.mem_of_head? hhead)
    cases hdigit

end IsDigits

theorem isDigit_of_mem_replicate {k : Nat} {c : Char} (hc : c ∈ List.replicate k '0') :
    c.isDigit = true := by
  rw [List.eq_of_mem_replicate hc]
  rfl

theorem valueOfDigits_paddedDigits (width n : Nat) : valueOfDigits (paddedDigits width n) = n := by
  rw [paddedDigits, valueOfDigits_append, valueOfDigits_replicate_zero, Nat.zero_mul, Nat.zero_add,
    valueOfDigits_digits]

theorem isDigits_paddedDigits (width n : Nat) : IsDigits (paddedDigits width n) :=
  .append_left (fun _ hc => isDigit_of_mem_replicate hc) (isDigits_digits n)

theorem length_paddedDigits {width n : Nat} (hwidth : 0 < width) (hn : n < 10 ^ width) :
    (paddedDigits width n).length = width := by
  have hfits : (digits n).length ≤ width := (Nat.length_toDigits_le_iff (by decide) hwidth).2 hn
  rw [paddedDigits, List.length_append, List.length_replicate]
  omega

/-! ### Numbers with a sign -/

theorem natural?_eq_some_iff {cs : List Char} {n : Nat} :
    natural? cs = some n ↔ IsDigits cs ∧ valueOfDigits cs = n := by
  unfold natural?
  rw [Option.ite_none_right_eq_some, Option.some.injEq]
  refine and_congr_left fun _ => ?_
  rw [Bool.and_eq_true, Bool.not_eq_true', List.isEmpty_eq_false_iff, List.all_eq_true]
  exact ⟨fun h => ⟨h.1, h.2⟩, fun h => ⟨h.ne_nil, h.isDigit⟩⟩

theorem signed?_minus_eq_some_iff {ds : List Char} {n : Int} :
    signed? ('-' :: ds) = some n ↔ IsDigits ds ∧ -(valueOfDigits ds : Int) = n := by
  have hread : signed? ('-' :: ds) = (natural? ds).map fun k : Nat => -(k : Int) := by
    rw [signed?]
    cases natural? ds <;> rfl
  simp [hread, natural?_eq_some_iff]

theorem signed?_plus_eq_some_iff {ds : List Char} {n : Int} :
    signed? ('+' :: ds) = some n ↔ IsDigits ds ∧ (valueOfDigits ds : Int) = n := by
  have hread : signed? ('+' :: ds) = (natural? ds).map fun k : Nat => (k : Int) := by
    rw [signed?]
    cases natural? ds <;> rfl
  simp [hread, natural?_eq_some_iff]

theorem signed?_eq_some_iff {cs : List Char} {n : Int} (hminus : cs.head? ≠ some '-')
    (hplus : cs.head? ≠ some '+') :
    signed? cs = some n ↔ IsDigits cs ∧ (valueOfDigits cs : Int) = n := by
  have hread : signed? cs = (natural? cs).map fun k : Nat => (k : Int) := by
    unfold signed?
    split
    · exact absurd rfl hminus
    · exact absurd rfl hplus
    · cases natural? cs <;> rfl
  simp [hread, natural?_eq_some_iff]

/-! ### Digits in base sixteen -/

theorem length_hexDigits (width n : Nat) : (hexDigits width n).length = width := by
  induction width generalizing n with
  | zero => rfl
  | succ width ih => rw [hexDigits, List.length_append, ih, List.length_singleton]

/-- A digit below sixteen is worth itself. -/
theorem hexValue?_hexDigit {n : Nat} (hn : n < 16) : hexValue? (hexDigit n) = some n := by
  have hall : ∀ k < 16, hexValue? (hexDigit k) = some k := by decide
  exact hall n hn

/-- The value of hexadecimal digits that follow others of the given value. -/
def hexValueAfter (before : Option Nat) (cs : List Char) : Option Nat :=
  cs.foldl (fun n c => do return 16 * (← n) + (← hexValue? c)) before

/-- **Reading hexadecimal digits** of a width goes on from what was read before, and gives what fits
in the width. -/
theorem hexValueAfter_hexDigits (width n k : Nat) :
    hexValueAfter (some k) (hexDigits width n) = some (16 ^ width * k + n % 16 ^ width) := by
  induction width generalizing n with
  | zero => simp [hexDigits, hexValueAfter, Nat.mod_one]
  | succ width ih =>
    have hlast : hexValue? (hexDigit (n % 16)) = some (n % 16) :=
      hexValue?_hexDigit (Nat.mod_lt n (by decide))
    have hfront := ih (n / 16)
    unfold hexValueAfter at hfront ⊢
    rw [hexDigits, List.foldl_append, hfront]
    simp only [List.foldl_cons, List.foldl_nil, hlast, Option.pure_def, Option.bind_eq_bind,
      Option.bind_some, Option.some.injEq]
    -- the last digit counts once, all others sixteen times
    have hsplit : n % 16 ^ (width + 1) = n % 16 + 16 * (n / 16 % 16 ^ width) := by
      rw [Nat.pow_succ', Nat.mod_mul]
    rw [hsplit, Nat.pow_succ']
    ring

/-- **The hexadecimal digits of a number** are worth it, if it fits. -/
theorem hexNatural?_hexDigits {width n : Nat} (hwidth : width ≠ 0) (hn : n < 16 ^ width) :
    hexNatural? (hexDigits width n) = some n := by
  have hne : (hexDigits width n).isEmpty = false := by
    rw [List.isEmpty_eq_false_iff_exists_mem, ← List.length_pos_iff_exists_mem, length_hexDigits]
    exact Nat.pos_of_ne_zero hwidth
  have hvalue := hexValueAfter_hexDigits width n 0
  rw [Nat.mul_zero, Nat.zero_add, Nat.mod_eq_of_lt hn] at hvalue
  rw [hexNatural?, hne]
  exact hvalue

/-- Every digit is one of the sixteen. -/
theorem mem_hexDigits {width n : Nat} {c : Char} (hc : c ∈ hexDigits width n) :
    ∃ k < 16, c = hexDigit k := by
  induction width generalizing n with
  | zero => cases hc
  | succ width ih =>
    rcases List.mem_append.1 hc with hfront | hlast
    · exact ih hfront
    · exact ⟨n % 16, Nat.mod_lt n (by decide), List.mem_singleton.1 hlast⟩

end QueryGateway.Text
