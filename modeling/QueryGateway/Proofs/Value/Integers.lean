import QueryGateway.Proofs.Value.Modes

/-!
# Coercion to integers

The four integer targets differ in their range alone. `integer_coercion` says what each of them
takes: integers in its range, and texts that write one, and nothing else. The texts are given by a
grammar of their own (`IsIntegerText`), a sign and digits with blanks around them.

A value that is neither an integer nor a text is read by its text as well, so the argument has to
keep printed dates, times, truth values and identifiers apart from integers. Each of them has a
character that no integer has, or a hyphen behind the front (`integer?_eq_none`).
-/

namespace QueryGateway

open Calendar Text

/-! ### The texts of integers -/

namespace Text

/-- **The texts of integers:** digits, with a plus sign before them or, if the integers are signed,
a minus sign. -/
inductive IsIntegerText (isSigned : Bool) : List Char → Int → Prop where
  | plain {ds : List Char} (h : IsDigits ds) : IsIntegerText isSigned ds (valueOfDigits ds)
  | plus {ds : List Char} (h : IsDigits ds) : IsIntegerText isSigned ('+' :: ds) (valueOfDigits ds)
  | minus {ds : List Char} (hsigned : isSigned = true) (h : IsDigits ds) :
    IsIntegerText isSigned ('-' :: ds) (-(valueOfDigits ds : Int))

/-- The integer in a text, where only signed integers have a minus sign. -/
def integerText? (isSigned : Bool) (cs : List Char) : Option Int :=
  if isSigned = false ∧ cs.head? = some '-' then none else signed? cs

/-- The reader of integers follows the grammar: a sign, which a range without negative numbers does
not take as minus, and then digits to the end. -/
theorem integerText?_eq_some_iff {isSigned : Bool} {cs : List Char} {n : Int} :
    integerText? isSigned cs = some n ↔ IsIntegerText isSigned cs n := by
  unfold integerText?
  rw [Option.ite_none_left_eq_some]
  constructor
  · rintro ⟨hsign, hread⟩
    -- by the first character: the reader takes off one sign and no more
    by_cases hminus : cs.head? = some '-'
    · obtain ⟨ds, rfl⟩ := List.head?_eq_some_iff.1 hminus
      obtain ⟨hdigits, rfl⟩ := signed?_minus_eq_some_iff.1 hread
      refine .minus ?_ hdigits
      by_contra hunsigned
      exact hsign ⟨Bool.eq_false_iff.2 hunsigned, rfl⟩
    by_cases hplus : cs.head? = some '+'
    · obtain ⟨ds, rfl⟩ := List.head?_eq_some_iff.1 hplus
      obtain ⟨hdigits, rfl⟩ := signed?_plus_eq_some_iff.1 hread
      exact .plus hdigits
    · obtain ⟨hdigits, rfl⟩ := (signed?_eq_some_iff hminus hplus).1 hread
      exact .plain hdigits
  · intro h
    -- back from the grammar: each of its three ways is one the reader goes
    cases h with
    | plain hdigits =>
      obtain ⟨hminus, hplus⟩ := hdigits.head?_ne_sign
      exact ⟨fun hcond => hminus hcond.2, (signed?_eq_some_iff hminus hplus).2 ⟨hdigits, rfl⟩⟩
    | plus hdigits =>
      refine ⟨fun hcond => ?_, signed?_plus_eq_some_iff.2 ⟨hdigits, rfl⟩⟩
      exact absurd (Option.some.inj hcond.2) (by decide)
    | minus hsigned hdigits =>
      refine ⟨fun hcond => ?_, signed?_minus_eq_some_iff.2 ⟨hdigits, rfl⟩⟩
      rw [hcond.1] at hsigned
      cases hsigned

/-- Behind its front, the text of an integer has digits alone. -/
theorem IsIntegerText.isDigit_of_mem_tail {isSigned : Bool} {cs : List Char} {n : Int}
    (h : IsIntegerText isSigned cs n) {c : Char} (hc : c ∈ cs.tail) : c.isDigit = true := by
  cases h with
  | plain hdigits => exact hdigits.isDigit c (List.mem_of_mem_tail hc)
  | plus hdigits => exact hdigits.isDigit c hc
  | minus _ hdigits => exact hdigits.isDigit c hc

/-- Signs and digits are all that an integer is written with. This is what tells the texts of other
values from it. -/
theorem IsIntegerText.isDigit_or_sign {isSigned : Bool} {cs : List Char} {n : Int}
    (h : IsIntegerText isSigned cs n) {c : Char} (hc : c ∈ cs) :
    c.isDigit = true ∨ c = '+' ∨ c = '-' := by
  cases h with
  | plain hdigits => exact .inl (hdigits.isDigit c hc)
  | plus hdigits =>
    rcases List.mem_cons.1 hc with rfl | hc
    · exact .inr (.inl rfl)
    · exact .inl (hdigits.isDigit c hc)
  | minus _ hdigits =>
    -- of the two signs, only this one depends on the range
    rcases List.mem_cons.1 hc with rfl | hc
    · exact .inr (.inr rfl)
    · exact .inl (hdigits.isDigit c hc)

/-- A text with a character that no integer has is no integer, whatever blanks are around it. -/
theorem integerText?_of_mem {isSigned : Bool} (c : Char) (hblank : isBlank c = false)
    (hother : c.isDigit = false ∧ c ≠ '+' ∧ c ≠ '-') {cs : List Char} (hmem : c ∈ cs) :
    integerText? isSigned (trimChars cs) = none := by
  rw [Option.eq_none_iff_forall_ne_some]
  intro n hread
  -- a reading would make the character a digit or a sign, and trimming has not removed it
  have hint := integerText?_eq_some_iff.1 hread
  rcases hint.isDigit_or_sign ((mem_trimChars_iff hblank).2 hmem) with hdigit | hplus | hminus
  · rw [hother.1] at hdigit
    cases hdigit
  · exact hother.2.1 hplus
  · exact hother.2.2 hminus

/-- A trimmed text with a sign behind its front is no integer. -/
theorem integerText?_of_mem_tail {isSigned : Bool} {cs : List Char} (htrimmed : IsTrimmed cs)
    {c : Char} (hother : c.isDigit = false) (hmem : c ∈ cs.tail) :
    integerText? isSigned (trimChars cs) = none := by
  rw [trimChars_eq_self htrimmed, Option.eq_none_iff_forall_ne_some]
  intro n hread
  have hdigit := (integerText?_eq_some_iff.1 hread).isDigit_of_mem_tail hmem
  rw [hother] at hdigit
  cases hdigit

/-- A text writes one integer. -/
theorem IsIntegerText.unique {isSigned : Bool} {cs : List Char} {m n : Int}
    (hm : IsIntegerText isSigned cs m) (hn : IsIntegerText isSigned cs n) : m = n := by
  rw [← integerText?_eq_some_iff] at hm hn
  exact Option.some.inj (hm.symm.trans hn)

/-- The text of an unsigned integer is one of a signed integer. -/
theorem IsIntegerText.signed {isSigned : Bool} {cs : List Char} {n : Int}
    (h : IsIntegerText isSigned cs n) : IsIntegerText true cs n := by
  cases h with
  | plain hdigits => exact .plain hdigits
  | plus hdigits => exact .plus hdigits
  | minus _ hdigits => exact .minus rfl hdigits

theorem toList_integerText (n : Int) :
    (integerText n).toList = if n < 0 then '-' :: digits n.natAbs else digits n.natAbs := by
  unfold integerText
  split <;> simp

/-- **An integer is written as itself,** if its sign is allowed. -/
theorem isIntegerText_integerText {isSigned : Bool} {n : Int} (hsign : isSigned = true ∨ 0 ≤ n) :
    IsIntegerText isSigned (integerText n).toList n := by
  have hdigits := isDigits_digits n.natAbs
  rw [toList_integerText]
  -- the sign is written apart, so the digits are those of the absolute value either way
  by_cases hneg : n < 0
  · have hvalue : -(valueOfDigits (digits n.natAbs) : Int) = n := by
      rw [valueOfDigits_digits]
      omega
    have hminus : IsIntegerText isSigned ('-' :: digits n.natAbs) _ :=
      .minus (hsign.resolve_right (by omega)) hdigits
    rw [if_pos hneg]
    rwa [hvalue] at hminus
  · have hvalue : (valueOfDigits (digits n.natAbs) : Int) = n := by
      rw [valueOfDigits_digits]
      omega
    have hplain : IsIntegerText isSigned (digits n.natAbs) _ := .plain hdigits
    rw [if_neg hneg]
    rwa [hvalue] at hplain

/-- Integers have no blanks in their texts. -/
theorem isBlank_of_mem_integerText (n : Int) : ∀ c ∈ (integerText n).toList, isBlank c = false := by
  intro c hc
  rcases (isIntegerText_integerText (n := n) (.inl rfl)).isDigit_or_sign hc with h | rfl | rfl
  · exact isBlank_of_isDigit h
  · decide
  · decide

end Text

/-! ### The integer that a value denotes -/

namespace RawValue

/-- **The integer that a value denotes,** if it is an integer or a text that writes one. -/
def integer? (isSigned : Bool) : RawValue → Option Int
  | .int n => some n.toInt
  | .text s => integerText? isSigned (trimChars s.toList)
  | _ => none

/-- **A value that denotes an integer:** the integer itself, or a text that writes it, with any
blanks around. -/
inductive Denotes (isSigned : Bool) : RawValue → Int → Prop where
  | int (n : Int64) : Denotes isSigned (.int n) n.toInt
  | text {s : String} {n : Int} (h : IsIntegerText isSigned (trimChars s.toList) n) :
    Denotes isSigned (.text s) n

/-- What the function reads in a value is what the value denotes: only integers and texts denote
any. -/
theorem integer?_eq_some_iff {isSigned : Bool} {raw : RawValue} {n : Int} :
    raw.integer? isSigned = some n ↔ raw.Denotes isSigned n := by
  constructor
  · intro h
    cases raw with
    | int m =>
      obtain rfl : m.toInt = n := Option.some.inj h
      exact .int m
    | text s => exact .text (integerText?_eq_some_iff.1 h)
    | _ => cases h
  · intro h
    cases h with
    | int n => rfl
    | text h => exact integerText?_eq_some_iff.2 h

end RawValue

/-! ### The rule of a range of integers -/

namespace Rule

variable {α β : Type}

/-- A range whose least number is zero takes no minus: this is the only way in which the ranges read
texts differently. -/
theorem ofText?_eq (type : IntegerType α) (cs : List Char) :
    type.ofText? cs = (integerText? (type.least ≠ 0) cs).bind type.ofInt? := by
  unfold IntegerType.ofText? integerText?
  -- both sides ask for the minus, the left one after the blanks are gone as well
  by_cases hsign : type.least = 0 ∧ cs.head? = some '-'
  · rw [if_pos, if_pos]
    · rfl
    · simpa using hsign
    · simpa using hsign
  · rw [if_neg, if_neg]
    · simpa using hsign
    · simpa using hsign

/-- **The rule of a range** reads the integer that a value denotes, if it lies in the range. -/
theorem read?_ofIntegerType (type : IntegerType α) {raw : RawValue} (hnull : raw ≠ .null) :
    (ofIntegerType type).read? raw = (raw.integer? (type.least ≠ 0)).bind type.ofInt? := by
  have hother : ∀ raw : RawValue,
      integerText? (type.least ≠ 0) (trimChars raw.display.toList) = none →
      type.ofText? (trimChars raw.display.toList) = none := by
    intro raw hnone
    rw [ofText?_eq, hnone]
    rfl
  -- of the other values the text is read, and each has a character that tells it from an integer
  cases raw with
  | null => exact absurd rfl hnull
  | text s => exact ofText?_eq type _
  | int n => exact Option.or_self
  | float x => rfl
  | decimal d => rfl
  | bool b =>
    refine hother (.bool b) (integerText?_of_mem 'e' (by decide) (by decide) ?_)
    cases b <;> decide
  | dateTime t =>
    refine hother (.dateTime t) (integerText?_of_mem 'T' (by decide) (by decide) ?_)
    simp [RawValue.display, DateTime.text]
  | offsetDateTime t =>
    refine hother (.offsetDateTime t) (integerText?_of_mem 'T' (by decide) (by decide) ?_)
    simp [RawValue.display, OffsetDateTime.text, DateTime.text]
  | time t =>
    refine hother (.time t) (integerText?_of_mem ':' (by decide) (by decide) ?_)
    simp [RawValue.display, TimeOfDay.text]
  | uuid u =>
    have htrimmed := isTrimmed_of_forall fun _ hc => u.isBlank_of_mem_text hc
    exact hother (.uuid u) (integerText?_of_mem_tail htrimmed (by decide) u.hyphen_mem_tail_text)

end Rule

/-! ### Integer targets -/

/-- **The integer targets.** -/
inductive IntegerTarget where
  | bigInt
  | int
  | smallInt
  | tinyInt
deriving DecidableEq

/-- The integer that a typed integer is. -/
def SqlValue.integer? : SqlValue → Option Int
  | .bigInt n => some n.toInt
  | .int n => some n.toInt
  | .smallInt n => some n.toInt
  | .tinyInt n => some n.toNat
  | _ => none

namespace IntegerTarget

/-- The target of parameters. -/
def target : IntegerTarget → Target
  | .bigInt => .bigInt
  | .int => .int
  | .smallInt => .smallInt
  | .tinyInt => .tinyInt

/-- Whether the target has negative integers. -/
def isSigned : IntegerTarget → Bool
  | .tinyInt => false
  | _ => true

/-- **The integers of a target:** those of sixty-four, thirty-two or sixteen bits with their sign,
or of eight bits without one. -/
def Holds (t : IntegerTarget) (n : Int) : Prop :=
  match t with
  | .bigInt => -2 ^ 63 ≤ n ∧ n < 2 ^ 63
  | .int => -2 ^ 31 ≤ n ∧ n < 2 ^ 31
  | .smallInt => -2 ^ 15 ≤ n ∧ n < 2 ^ 15
  | .tinyInt => 0 ≤ n ∧ n < 2 ^ 8

/-- The typed value of an integer of the target. -/
def value (t : IntegerTarget) (n : Int) : SqlValue :=
  match t with
  | .bigInt => .bigInt (.ofInt n)
  | .int => .int (.ofInt n)
  | .smallInt => .smallInt (.ofInt n)
  | .tinyInt => .tinyInt (.ofNat n.toNat)

/-- **The typed value of an integer** is that integer. -/
theorem integer?_value {t : IntegerTarget} {n : Int} (h : t.Holds n) :
    (t.value n).integer? = some n := by
  cases t with
  | bigInt => exact congrArg some (Int64.toInt_ofInt_of_le h.1 h.2)
  | int => exact congrArg some (Int32.toInt_ofInt_of_le h.1 h.2)
  | smallInt => exact congrArg some (Int16.toInt_ofInt_of_le h.1 h.2)
  -- a byte has no sign, so the number goes through the natural numbers and back
  | tinyInt =>
    obtain ⟨hlow, hhigh⟩ := h
    have hsize : n.toNat < UInt8.size := by
      change n.toNat < 256
      omega
    have hback : (UInt8.ofNat n.toNat).toNat = n.toNat := UInt8.toNat_ofNat_of_lt' hsize
    change some ((UInt8.ofNat n.toNat).toNat : Int) = some n
    rw [hback, Int.toNat_of_nonneg hlow]

/-- What the rule of a range reads, with its values wrapped as typed values of a target that has the
same range. -/
theorem map_read?_eq_some_iff {α : Type} {t : IntegerTarget} {type : Rule.IntegerType α}
    {wrap : α → SqlValue} (hrange : ∀ n, t.Holds n ↔ type.least ≤ n ∧ n ≤ type.greatest)
    (hsigned : decide (type.least ≠ 0) = t.isSigned)
    (hvalue : ∀ n, t.value n = wrap (type.ofInt n)) {raw : RawValue} (hnull : raw ≠ .null)
    (v : SqlValue) :
    ((Rule.ofIntegerType type).read? raw).map wrap = some v ↔
      ∃ n, t.Holds n ∧ raw.Denotes t.isSigned n ∧ t.value n = v := by
  rw [Rule.read?_ofIntegerType type hnull, hsigned, Option.map_eq_some_iff]
  -- the bounds of the range were asked when the number was read, so they come out with it
  constructor
  · rintro ⟨a, hread, rfl⟩
    obtain ⟨n, hn, ha⟩ := Option.bind_eq_some_iff.1 hread
    unfold Rule.IntegerType.ofInt? at ha
    rw [Option.ite_none_right_eq_some, Option.some.injEq] at ha
    obtain ⟨hmem, rfl⟩ := ha
    exact ⟨n, (hrange n).2 hmem, RawValue.integer?_eq_some_iff.1 hn, hvalue n⟩
  · rintro ⟨n, hmem, hn, rfl⟩
    refine ⟨type.ofInt n, ?_, (hvalue n).symm⟩
    rw [RawValue.integer?_eq_some_iff.2 hn, Option.bind_some, Rule.IntegerType.ofInt?,
      if_pos ((hrange n).1 hmem)]

/-- **An integer target reads** the integer that a value denotes, if the target holds it. -/
theorem read?_target_eq_some_iff (t : IntegerTarget) {raw : RawValue} (hnull : raw ≠ .null)
    (v : SqlValue) :
    t.target.rule.read? raw = some v ↔
      ∃ n, t.Holds n ∧ raw.Denotes t.isSigned n ∧ t.value n = v := by
  -- the bounds are written as powers by the rules; these let omega compare them with the ranges
  -- here
  have hpow63 : Int.pow 2 63 = 2 ^ 63 := rfl
  have hpow31 : Int.pow 2 31 = 2 ^ 31 := rfl
  have hpow15 : Int.pow 2 15 = 2 ^ 15 := rfl
  have hpow8 : Int.pow 2 8 = 2 ^ 8 := rfl
  cases t with
  | bigInt =>
    -- each target reads a value of its own type directly and the others by conversion, which are
    -- the two sources of one rule of a range
    change ((Rule.bigInt.direct raw).map _).or ((Rule.bigInt.convert raw).map _) = _ ↔ _
    rw [← Option.map_or]
    refine map_read?_eq_some_iff (fun n => ?_) (by decide) (fun _ => rfl) hnull v
    change -2 ^ 63 ≤ n ∧ n < 2 ^ 63 ↔ -Int.pow 2 63 ≤ n ∧ n ≤ Int.pow 2 63 - 1
    omega
  | int =>
    change ((Rule.int.direct raw).map _).or ((Rule.int.convert raw).map _) = _ ↔ _
    rw [← Option.map_or]
    refine map_read?_eq_some_iff (fun n => ?_) (by decide) (fun _ => rfl) hnull v
    change -2 ^ 31 ≤ n ∧ n < 2 ^ 31 ↔ -Int.pow 2 31 ≤ n ∧ n ≤ Int.pow 2 31 - 1
    omega
  | smallInt =>
    change ((Rule.smallInt.direct raw).map _).or ((Rule.smallInt.convert raw).map _) = _ ↔ _
    rw [← Option.map_or]
    refine map_read?_eq_some_iff (fun n => ?_) (by decide) (fun _ => rfl) hnull v
    change -2 ^ 15 ≤ n ∧ n < 2 ^ 15 ↔ -Int.pow 2 15 ≤ n ∧ n ≤ Int.pow 2 15 - 1
    omega
  | tinyInt =>
    change ((Rule.tinyInt.direct raw).map _).or ((Rule.tinyInt.convert raw).map _) = _ ↔ _
    rw [← Option.map_or]
    refine map_read?_eq_some_iff (fun n => ?_) (by decide) (fun _ => rfl) hnull v
    change 0 ≤ n ∧ n < 2 ^ 8 ↔ 0 ≤ n ∧ n ≤ Int.pow 2 8 - 1
    omega

/-- Why an integer target refuses a value. -/
def refusal (t : IntegerTarget) (raw : RawValue) : CoercionError :=
  if raw = .null then .nullInput t.target.typeName
  else .conversion raw.typeName raw.display t.target.typeName

/-- An absent value denotes no integer. -/
theorem not_denotes_null {isSigned : Bool} (n : Int) : ¬RawValue.null.Denotes isSigned n := by
  intro h
  cases h

/-- Success of a strict coercion, for every value: an absent one denotes no integer, so it needs no
hypothesis. -/
theorem strict_eq_ok_iff (t : IntegerTarget) (raw : RawValue) (v : SqlValue) :
    t.target.rule.strict raw = .ok v ↔
      ∃ n, t.Holds n ∧ raw.Denotes t.isSigned n ∧ t.value n = v := by
  by_cases hnull : raw = .null
  · subst hnull
    constructor
    · intro h
      cases h
    · rintro ⟨n, -, hn, -⟩
      exact absurd hn (not_denotes_null n)
  · rw [Rule.strict_eq_ok_iff _ hnull]
    exact read?_target_eq_some_iff t hnull v

/-- Refusal of a strict coercion, with the error: it is the other half of the same case split, and
the error depends on the value alone. -/
theorem strict_eq_error_iff (t : IntegerTarget) (raw : RawValue) (e : CoercionError) :
    t.target.rule.strict raw = .error e ↔
      (∀ n, raw.Denotes t.isSigned n → ¬t.Holds n) ∧ e = t.refusal raw := by
  have hok := t.strict_eq_ok_iff raw
  -- a refusal is the absence of an integer, and says which way the value failed
  have hrefusal : ∀ e, t.target.rule.strict raw = .error e → e = t.refusal raw := by
    intro e he
    by_cases hnull : raw = .null
    · subst hnull
      cases he
      rfl
    · rw [Rule.strict_eq _ hnull] at he
      rw [refusal, if_neg hnull]
      cases hread : t.target.rule.read? raw with
      | some v =>
        rw [hread] at he
        cases he
      | none =>
        rw [hread] at he
        exact (Except.error.inj he).symm
  constructor
  · intro he
    refine ⟨fun n hn hmem => ?_, hrefusal e he⟩
    rw [(hok (t.value n)).2 ⟨n, hmem, hn, rfl⟩] at he
    cases he
  · -- nothing the value denotes is in range, so a success would contradict its own reading
    rintro ⟨hnone, rfl⟩
    cases hstrict : t.target.rule.strict raw with
    | ok v =>
      obtain ⟨n, hmem, hn, -⟩ := (hok v).1 hstrict
      exact absurd hmem (hnone n hn)
    | error e => rw [hrefusal e hstrict]

/-- What an integer target refuses, it refuses as a nullable target as well. -/
theorem strictNullable_ne_of_error {t : IntegerTarget} {raw : RawValue} {e : CoercionError}
    (h : t.target.rule.strict raw = .error e) (v : SqlValue) :
    t.target.rule.strictNullable raw ≠ .ok (some v) := by
  rw [Rule.strictNullable_eq, h]
  split
  · intro hsome
    cases hsome
  · intro hsome
    cases hsome

theorem Holds.isSigned_or {t : IntegerTarget} {n : Int} (h : t.Holds n) :
    t.isSigned = true ∨ 0 ≤ n := by
  cases t with
  | tinyInt => exact .inr h.1
  | _ => exact .inl rfl

/-- Of the integers of a target, the text of an integer denotes this one. -/
theorem denotes_integerText_iff {t : IntegerTarget} {m n : Int} (hmem : t.Holds m) :
    (RawValue.text (integerText n)).Denotes t.isSigned m ↔ m = n := by
  -- the text of an integer has no blanks, so trimming leaves it
  have htrim := trimChars_eq_self (isTrimmed_of_forall (isBlank_of_mem_integerText n))
  constructor
  · intro hm
    cases hm with
    -- the digits of a text fix its number, so there is no second integer it denotes
    | text hm =>
    rw [htrim] at hm
    exact hm.signed.unique (isIntegerText_integerText (.inl rfl))
  · rintro rfl
    apply RawValue.Denotes.text
    rw [htrim]
    exact isIntegerText_integerText hmem.isSigned_or

/-- **An integer and its text** are taken alike. -/
theorem toOption_strict_text (t : IntegerTarget) (n : Int64) :
    (t.target.rule.strict (.text (integerText n.toInt))).toOption =
      (t.target.rule.strict (.int n)).toOption := by
  -- the two errors differ, each showing its own value: so the readings are compared without them
  have htoOption : ∀ raw v, (t.target.rule.strict raw).toOption = some v ↔
      ∃ m, t.Holds m ∧ raw.Denotes t.isSigned m ∧ t.value m = v := by
    intro raw v
    rw [← strict_eq_ok_iff]
    cases t.target.rule.strict raw <;> simp [Except.toOption]
  have hint : ∀ m, (RawValue.int n).Denotes t.isSigned m ↔ m = n.toInt := by
    intro m
    constructor
    · rintro ⟨⟩
      rfl
    · rintro rfl
      exact .int n
  apply Option.ext
  intro v
  rw [htoOption, htoOption]
  -- both sides ask for an integer in range, and the two values denote the same one
  refine exists_congr fun m => and_congr_right fun hmem => and_congr_left fun _ => ?_
  rw [denotes_integerText_iff hmem, hint m]

end IntegerTarget

/-- **Integer targets take exactly the integers in their range.** Strict coercion to one of the four
gives an integer iff the target holds it and the value denotes it: as an integer, or as a text that
writes it with a sign and digits. Every other value is refused, an absent one for its absence and
all else for its conversion, and then both lenient ways keep their fallback. So an integer and its
text are taken alike by every target. -/
theorem integer_coercion (t : IntegerTarget) (raw : RawValue) :
    (∀ n, (∃ v, t.target.rule.strict raw = .ok v ∧ v.integer? = some n) ↔
        t.Holds n ∧ raw.Denotes t.isSigned n) ∧
      (∀ e, t.target.rule.strict raw = .error e ↔
        (∀ n, raw.Denotes t.isSigned n → ¬t.Holds n) ∧ e = t.refusal raw) ∧
      (∀ e, t.target.rule.strict raw = .error e →
        (∀ fallback, t.target.rule.lenient raw fallback = fallback) ∧
          ∀ fallback, t.target.rule.lenientNullable raw fallback = fallback) ∧
      ∀ n : Int64, (t.target.rule.strict (.text (integerText n.toInt))).toOption =
        (t.target.rule.strict (.int n)).toOption := by
  refine ⟨fun n => ⟨?given, ?taken⟩, t.strict_eq_error_iff raw, fun e he => ⟨?_, ?_⟩,
    t.toOption_strict_text⟩
  -- a typed value is the integer it was made of, so what comes back is what was denoted
  case given =>
    rintro ⟨v, hv, hn⟩
    obtain ⟨m, hmem, hm, rfl⟩ := (t.strict_eq_ok_iff raw v).1 hv
    rw [IntegerTarget.integer?_value hmem] at hn
    obtain rfl := Option.some.inj hn
    exact ⟨hmem, hm⟩
  case taken =>
    rintro ⟨hmem, hn⟩
    exact ⟨t.value n, (t.strict_eq_ok_iff raw _).2 ⟨n, hmem, hn, rfl⟩,
      IntegerTarget.integer?_value hmem⟩
  · exact t.target.rule.lenient_of_error he
  · exact t.target.rule.lenientNullable_of_forall_ne (IntegerTarget.strictNullable_ne_of_error he)

end QueryGateway
