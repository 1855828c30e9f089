import QueryGateway.Proofs.Uuid
import QueryGateway.Value.Coercion

/-!
# The modes of coercion

A rule is applied in four ways: strictly or leniently, to a target that needs a value or to one that
also takes its absence. `modes_agree` says how they hang together. The strict way to a target that
needs a value decides what converts; the other three are read off it.

Two facts about the thirteen rules carry this. Values that are not absent have a text, apart from
the empty text itself (`display_eq_empty_iff`), so nothing typed is taken for an absence. And the
empty text is of the target already if and only if the target is text (`direct_emptyText`).
-/

namespace QueryGateway

open Calendar Number Text

/-! ### Values without a text -/

theorem ofList_ne_empty {cs : List Char} (h : cs ≠ []) : String.ofList cs ≠ "" := by
  intro hempty
  apply h
  have hlist := congrArg String.toList hempty
  rwa [String.toList_ofList] at hlist

theorem append_ne_empty {s t : String} (h : t ≠ "") : s ++ t ≠ "" := by
  intro hempty
  exact h (String.append_eq_empty_iff.1 hempty).2

theorem withPoint_ne_nil (ds : List Char) (places : Nat) : withPoint ds places ≠ [] := by
  unfold withPoint
  split
  · exact List.append_ne_nil_of_right_ne_nil _ (List.cons_ne_nil _ _)
  · exact List.cons_ne_nil _ _

theorem integerText_ne_empty (n : Int) : integerText n ≠ "" := by
  have hdigits : String.ofList (digits n.natAbs) ≠ "" := ofList_ne_empty (isDigits_digits _).ne_nil
  unfold integerText
  split
  · exact append_ne_empty hdigits
  · exact hdigits

/-- The text of a number in binary has a character, in each of its shapes: a word for what is no
number, the infinite ones, zero, and the digits that are written out. -/
theorem binaryText_ne_empty {f : Format} (x : Binary f) : x.text ≠ "" := by
  have hpositional : ∀ significand exponent,
      String.ofList (positional significand exponent) ≠ "" := by
    intro significand exponent
    apply ofList_ne_empty
    -- digits without a point, or a point somewhere among them or zeros
    unfold positional
    split
    · exact List.append_ne_nil_of_left_ne_nil (isDigits_digits _).ne_nil _
    · exact withPoint_ne_nil _ _
  -- by the shapes, in the order in which the text is made
  unfold Binary.text
  extract_lets sign
  split
  · decide
  split
  · exact append_ne_empty (by decide)
  split
  · exact append_ne_empty (by decide)
  · obtain ⟨significand, exponent⟩ := shortest .up x
    exact append_ne_empty (hpositional significand exponent)

/-- A decimal number has a character in its text too, on whichever side of the point its digits
are. -/
theorem magnitudeText_ne_nil {ds : List Char} (h : ds ≠ []) (scale : Int) :
    Decimal.magnitudeText ds scale ≠ [] := by
  unfold Decimal.magnitudeText
  -- the scale says where the point goes: behind zeros, among the digits, or beyond them
  split
  · split
    · exact List.append_ne_nil_of_right_ne_nil _ (List.cons_ne_nil _ _)
    · exact withPoint_ne_nil _ _
  · dsimp only
    split
    · exact List.append_ne_nil_of_left_ne_nil h _
    · exact List.append_ne_nil_of_left_ne_nil h _

theorem decimalText_ne_empty (d : Decimal) : d.text ≠ "" := by
  have hbody := magnitudeText_ne_nil (isDigits_digits d.digits.natAbs).ne_nil d.scale
  unfold Decimal.text
  split
  · decide
  · apply ofList_ne_empty
    split
    · exact List.cons_ne_nil _ _
    · exact hbody

theorem timeText_ne_nil (t : TimeOfDay) : t.text ≠ [] := by
  unfold TimeOfDay.text
  apply List.append_ne_nil_of_left_ne_nil
  apply List.append_ne_nil_of_right_ne_nil
  exact List.cons_ne_nil _ _

theorem dateTimeText_ne_nil (t : DateTime) : t.text ≠ [] :=
  List.append_ne_nil_of_right_ne_nil _ (List.cons_ne_nil _ _)

theorem uuidText_ne_empty (u : Uuid) : u.text ≠ "" := by
  intro hempty
  have hlength := u.length_text
  rw [hempty] at hlength
  cases hlength

/-- **Nothing but an absent value and the empty text has an empty text.** -/
theorem display_eq_empty_iff (raw : RawValue) :
    raw.display = "" ↔ raw = .null ∨ raw = .text "" := by
  constructor
  · intro h
    -- each type has its own reason not to be empty, found beside the text it is made by
    cases raw with
    | null => exact .inl rfl
    | text s => exact .inr (congrArg RawValue.text h)
    | bool b => cases b <;> exact absurd h (by decide)
    | int n => exact absurd h (integerText_ne_empty _)
    | float x => exact absurd h (binaryText_ne_empty x)
    | decimal d => exact absurd h (decimalText_ne_empty d)
    | dateTime t => exact absurd h (ofList_ne_empty (dateTimeText_ne_nil t))
    | offsetDateTime t =>
      refine absurd h (ofList_ne_empty ?_)
      exact List.append_ne_nil_of_left_ne_nil (dateTimeText_ne_nil t.clock) _
    | time t => exact absurd h (ofList_ne_empty (timeText_ne_nil t))
    | uuid u => exact absurd h (uuidText_ne_empty u)
  · rintro (rfl | rfl)
    · rfl
    · rfl

/-! ### The empty text -/

/-- The empty text is a text already, and of no other target. -/
theorem Target.direct_emptyText (t : Target) :
    t.rule.direct (.text "") = if t = .text then some (.text "") else none := by
  cases t <;> rfl

/-! ### One rule in four ways -/

namespace Rule

variable {α : Type} (rule : Rule α)

theorem strict_null : rule.strict .null = .error (.nullInput rule.typeName) :=
  rfl

theorem isNull_eq_false {raw : RawValue} (h : raw ≠ .null) : raw.isNull = false := by
  cases raw <;> first | rfl | exact absurd rfl h

theorem evaluate_of_direct {raw : RawValue} (hnull : raw ≠ .null) {a : α}
    (h : rule.direct raw = some a) (nullable : Bool) : rule.evaluate nullable raw = .value a := by
  rw [evaluate, isNull_eq_false hnull, h]
  rfl

/-- A value that is not of the type already goes the way of conversion, unless its empty text makes
it no value. -/
theorem evaluate_of_convert {raw : RawValue} (hnull : raw ≠ .null) (h : rule.direct raw = none)
    {nullable : Bool} (hempty : nullable = true → raw.display ≠ "") :
    rule.evaluate nullable raw =
      match rule.convert raw with
      | some a => .value a
      | none => .failed (.conversion raw.typeName raw.display rule.typeName) := by
  -- the one early way out is for an empty text under a nullable target, which the hypothesis
  -- excludes
  have hskip : (nullable && raw.display.isEmpty) = false := by
    rw [Bool.eq_false_iff, ne_eq, Bool.and_eq_true, String.isEmpty_iff]
    exact fun ⟨hnullable, htext⟩ => hempty hnullable htext
  rw [evaluate, isNull_eq_false hnull, h, hskip]
  rfl

/-- What a rule makes of a value that is there, in one optional value. -/
def read? (raw : RawValue) : Option α :=
  (rule.direct raw).or (rule.convert raw)

/-- **Strict coercion of a value that is there** reads it or fails to convert it. -/
theorem strict_eq {raw : RawValue} (hnull : raw ≠ .null) :
    rule.strict raw =
      match rule.read? raw with
      | some a => .ok a
      | none => .error (.conversion raw.typeName raw.display rule.typeName) := by
  -- both sides try the type itself first and conversion second
  unfold strict read?
  cases hdirect : rule.direct raw with
  | some a =>
    rw [evaluate_of_direct rule hnull hdirect]
    rfl
  | none =>
    rw [evaluate_of_convert rule hnull hdirect fun h => absurd h Bool.false_ne_true]
    cases rule.convert raw <;> rfl

theorem strict_eq_ok_iff {raw : RawValue} (hnull : raw ≠ .null) (a : α) :
    rule.strict raw = .ok a ↔ rule.read? raw = some a := by
  rw [rule.strict_eq hnull]
  cases rule.read? raw <;> simp

theorem strict_of_read?_eq_none {raw : RawValue} (hnull : raw ≠ .null) (h : rule.read? raw = none) :
    rule.strict raw = .error (.conversion raw.typeName raw.display rule.typeName) := by
  rw [rule.strict_eq hnull, h]

/-- The strict way to a nullable target, from the strict way to the target itself. -/
theorem strictNullable_eq (raw : RawValue) :
    rule.strictNullable raw =
      if raw = .null ∨ rule.direct raw = none ∧ raw = .text "" then .ok none
      else (rule.strict raw).map some := by
  -- three values end the rule early: an absent one, one of the type, an empty text
  by_cases hnull : raw = .null
  · rw [if_pos (.inl hnull), hnull]
    rfl
  cases hdirect : rule.direct raw with
  | some a =>
    have hcond : ¬(raw = .null ∨ some a = none ∧ raw = .text "") := by
      rintro (h | ⟨h, -⟩)
      · exact hnull h
      · cases h
    rw [if_neg hcond, strictNullable, strict, evaluate_of_direct rule hnull hdirect,
      evaluate_of_direct rule hnull hdirect]
    rfl
  -- not of the type: the empty text is for no value, and every other goes to conversion as in the
  -- strict way
  | none =>
    by_cases hempty : raw = .text ""
    · rw [if_pos (.inr ⟨rfl, hempty⟩), strictNullable, evaluate]
      subst hempty
      rw [hdirect]
      rfl
    · have hdisplay : raw.display ≠ "" := fun h =>
        ((display_eq_empty_iff raw).1 h).elim hnull hempty
      have hcond : ¬(raw = .null ∨ (none : Option α) = none ∧ raw = .text "") := by
        rintro (h | ⟨-, h⟩)
        · exact hnull h
        · exact hempty h
      rw [if_neg hcond, strictNullable, strict,
        evaluate_of_convert rule hnull hdirect fun _ => hdisplay,
        evaluate_of_convert rule hnull hdirect fun h => absurd h Bool.false_ne_true]
      cases rule.convert raw <;> rfl

theorem lenient_of_ok {raw : RawValue} {a : α} (h : rule.strict raw = .ok a) (fallback : α) :
    rule.lenient raw fallback = a := by
  unfold lenient
  unfold strict at h
  cases hvalue : rule.evaluate false raw <;> rw [hvalue] at h <;> cases h
  rfl

/-- Where the strict way fails, the lenient one has its fallback: the two are readings of one
evaluation. -/
theorem lenient_of_error {raw : RawValue} {e : CoercionError} (h : rule.strict raw = .error e)
    (fallback : α) : rule.lenient raw fallback = fallback := by
  unfold lenient
  unfold strict at h
  cases hvalue : rule.evaluate false raw with
  | value a =>
    rw [hvalue] at h
    cases h
  | absent => rfl
  | failed e => rfl

theorem lenientNullable_of_some {raw : RawValue} {a : α}
    (h : rule.strictNullable raw = .ok (some a)) (fallback : Option α) :
    rule.lenientNullable raw fallback = some a := by
  unfold lenientNullable
  unfold strictNullable at h
  cases hvalue : rule.evaluate true raw <;> rw [hvalue] at h <;> cases h
  rfl

/-- The same for a nullable target, where no value counts as failing: it leaves the fallback too. -/
theorem lenientNullable_of_forall_ne {raw : RawValue}
    (h : ∀ a, rule.strictNullable raw ≠ .ok (some a)) (fallback : Option α) :
    rule.lenientNullable raw fallback = fallback := by
  unfold lenientNullable
  unfold strictNullable at h
  cases hvalue : rule.evaluate true raw with
  | value a =>
    rw [hvalue] at h
    exact absurd rfl (h a)
  | absent => rfl
  | failed e => rfl

end Rule

/-! ### What is read in a text -/

namespace Target

theorem read?_eq (t : Target) (raw : RawValue) :
    t.rule.read? raw = (t.direct raw).or (t.convert raw) :=
  rfl

variable (s : String)

theorem read?_bool_text :
    Target.bool.rule.read? (.text s) = (Rule.truth? (trim s)).map .bool := by
  simp only [Target.read?_eq, Target.direct, Target.convert, Rule.bool, Option.map_none,
    Option.none_or, RawValue.display]

theorem read?_decimal_text :
    Target.decimal.rule.read? (.text s) = (Decimal.ofText? (trimChars s.toList)).map .decimal := by
  simp only [Target.read?_eq, Target.direct, Target.convert, Rule.decimal, Option.map_none,
    Option.none_or]

theorem read?_dateTime_text :
    Target.dateTime.rule.read? (.text s) = (readDateTime? s).map .dateTime := by
  simp only [Target.read?_eq, Target.direct, Target.convert, Rule.dateTime, Option.map_none,
    Option.none_or]

theorem read?_offsetDateTime_text :
    Target.offsetDateTime.rule.read? (.text s) = (readOffsetDateTime? s).map .offsetDateTime := by
  simp only [Target.read?_eq, Target.direct, Target.convert, Rule.offsetDateTime, Option.map_none,
    Option.none_or]

theorem read?_time_text :
    Target.time.rule.read? (.text s) = (readTimeOfDay? s).map .time := by
  simp only [Target.read?_eq, Target.direct, Target.convert, Rule.time, Option.map_none,
    Option.none_or]

theorem read?_uuid_text :
    Target.uuid.rule.read? (.text s) = (Uuid.ofText? (trimChars s.toList)).map .uuid := by
  simp only [Target.read?_eq, Target.direct, Target.convert, Rule.uuid, Option.map_none,
    Option.none_or]

end Target

/-! ### All modes together -/

/-- **One rule set behind all modes of coercion,** for each of the thirteen targets, every value and
every fallback. Strictly, a nullable target takes an absent value and, unless it is text, the empty
text for no value, and treats all else as the target itself does, its errors included. Leniently, a
value that the strict way yields is kept, and the fallback stands for everything else: so no value
comes back only where the fallback is none. -/
theorem modes_agree (t : Target) (raw : RawValue) :
    t.rule.strictNullable raw =
        (if raw = .null ∨ raw = .text "" ∧ t ≠ .text then .ok none
        else (t.rule.strict raw).map some) ∧
      t.rule.strict .null = .error (.nullInput t.typeName) ∧
      (∀ fallback, t.rule.lenient raw fallback =
        match t.rule.strict raw with
        | .ok v => v
        | .error _ => fallback) ∧
      ∀ fallback, (t.rule.lenientNullable raw fallback =
          match t.rule.strictNullable raw with
          | .ok (some v) => some v
          | _ => fallback) ∧
        (t.rule.lenientNullable raw fallback = none ↔
          fallback = none ∧ ∀ v, t.rule.strictNullable raw ≠ .ok (some v)) := by
  refine ⟨?nullable, t.rule.strict_null, fun fallback => ?lenient, fun fallback => ?both⟩
  case nullable =>
    rw [Rule.strictNullable_eq]
    -- the empty text is taken for no value by every target that it is not of already
    have hcond : t.rule.direct raw = none ∧ raw = .text "" ↔ raw = .text "" ∧ t ≠ .text := by
      rw [and_comm]
      refine and_congr_right fun hempty => ?_
      rw [hempty, Target.direct_emptyText]
      by_cases htext : t = .text <;> simp [htext]
    simp only [hcond]
  -- the strict way decides between the value and the fallback, for the target and for its nullable
  -- form
  case lenient =>
    cases hstrict : t.rule.strict raw with
    | ok v => exact t.rule.lenient_of_ok hstrict fallback
    | error e => exact t.rule.lenient_of_error hstrict fallback
  case both =>
    -- the fallback is kept exactly where no value came out
    by_cases hvalue : ∃ v, t.rule.strictNullable raw = .ok (some v)
    · obtain ⟨v, hv⟩ := hvalue
      rw [hv, t.rule.lenientNullable_of_some hv]
      refine ⟨rfl, fun hnone => ?_, fun ⟨_, hno⟩ => absurd rfl (hno v)⟩
      cases hnone
    · have hno : ∀ v, t.rule.strictNullable raw ≠ .ok (some v) := fun v hv => hvalue ⟨v, hv⟩
      rw [t.rule.lenientNullable_of_forall_ne hno]
      refine ⟨?_, fun hnone => ⟨hnone, hno⟩, fun h => h.1⟩
      split
      · next v hv => exact absurd hv (hno v)
      · rfl

end QueryGateway
