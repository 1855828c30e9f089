import QueryGateway.Proofs.Calendar.Days
import QueryGateway.Proofs.Calendar.Items
import QueryGateway.Proofs.Postgres.Formats
import QueryGateway.Proofs.Postgres.Groups
import QueryGateway.Proofs.Text.Utf8

/-!
# Parameters are what was bound

A server reads the octets of a parameter under the type that was announced with it. What it reads
denotes the value that was bound (`sent_is_bound`): the same number, boolean, text, bits or
identifier, the same date-time, moment or time of day up to a microsecond, the same decimal digit
for digit.

Times are compared in nanoseconds on their own clocks, so that a moment is measured from its local
time and its offset and not from the universal time that is sent. Only decimals can lack a binary
form; whether one does is said of the decimal itself (`HasBinaryForm`), by the digits that it shows,
the group of its first digit and the groups that reach down to its last.
-/

namespace QueryGateway

open Calendar Number

/-! ### Values without leap seconds -/

/-- Whether a time of day is no leap second. A server has no leap seconds, so there is nothing that
one could be sent as. -/
def Calendar.TimeOfDay.IsOrdinary (t : TimeOfDay) : Prop :=
  t.nanosecond < nanosPerSecond

/-- Whether a value holds no leap second. -/
def SqlValue.HasNoLeapSecond : SqlValue → Prop
  | .dateTime t => t.time.IsOrdinary
  | .offsetDateTime t => t.clock.time.IsOrdinary
  | .time t => t.IsOrdinary
  | _ => True

namespace Postgres

/-! ### Truncation to microseconds -/

/-- The start of the year two thousand, from which a server counts. -/
def serverEpoch : DateTime :=
  ⟨(Date.of? 2000 1 1).get rfl, .midnight⟩

/-- **Truncation:** microseconds that differ from nanoseconds by less than one microsecond and lie
between them and zero. -/
structure IsTruncated (micros nanos : Int) : Prop where
  /-- They differ by less than one microsecond. -/
  near : 1000 * micros - 1000 < nanos ∧ nanos < 1000 * micros + 1000
  /-- What is dropped brings them closer to zero. -/
  inward : (0 ≤ nanos → 1000 * micros ≤ nanos) ∧ (nanos ≤ 0 → nanos ≤ 1000 * micros)

/-- Division toward zero truncates: what is left over has the sign of the whole and is less than a
microsecond. -/
theorem isTruncated_tdiv (nanos : Int) : IsTruncated (nanos.tdiv 1000) nanos := by
  have hparts : 1000 * nanos.tdiv 1000 + nanos.tmod 1000 = nanos := Int.mul_tdiv_add_tmod nanos 1000
  rcases Int.le_total 0 nanos with hpos | hneg
  · have hnonneg := Int.tmod_nonneg 1000 hpos
    have hlt := Int.tmod_lt_of_pos nanos (b := 1000) (by decide)
    exact ⟨by omega, by omega⟩
  · -- below zero the remainder is that of the opposite number, with its sign turned
    have hflip : (-nanos).tmod 1000 = -nanos.tmod 1000 := Int.neg_tmod nanos 1000
    have hnonneg := Int.tmod_nonneg 1000 (Int.neg_nonneg_of_nonpos hneg)
    have hlt := Int.tmod_lt_of_pos (-nanos) (b := 1000) (by decide)
    exact ⟨by omega, by omega⟩

theorem microsSinceEpoch_eq (t : DateTime) :
    microsSinceEpoch t = (t.nanos - serverEpoch.nanos).tdiv 1000 := rfl

/-- The microseconds of the whole calendar fit into eight octets. -/
theorem microsSinceEpoch_mem (t : DateTime) :
    -256 ^ 8 ≤ 2 * microsSinceEpoch t ∧ 2 * microsSinceEpoch t < 256 ^ 8 := by
  -- a bound for the day, for the clock and for the fraction, far within the range
  have hday := t.date.dayNumber_mem
  have hclock := t.time.secondOfDay_lt
  have hnano := t.time.nanosecond_lt
  have hepoch : serverEpoch.nanos = 63082281600000000000 := by decide
  have hnear := (isTruncated_tdiv (t.nanos - serverEpoch.nanos)).near
  rw [← microsSinceEpoch_eq, hepoch] at hnear
  simp only [DateTime.nanos, TimeOfDay.nanosSinceMidnight, secondsPerDay, nanosPerSecond] at *
  omega

/-! ### Decimals with a binary form -/

open Numeric (point ReachesIn)

/-- **Whether a decimal has a binary form:** sixteen bits hold the number of digits that it shows
after the point, the group of its first digit and the number of its groups. -/
structure HasBinaryForm (d : Decimal) : Prop where
  /-- The digits after the point can be counted. -/
  shown : max 0 d.scale < 2 ^ 15
  /-- The group of the first digit has a number. -/
  weight : -2 ^ 15 ≤ (point d - 1) / 4 ∧ (point d - 1) / 4 < 2 ^ 15
  /-- The groups can be counted, but for zeros at the end. -/
  count : ReachesIn d (2 ^ 15 - 1)

/-- A decimal has octets iff it has a binary form: its counts fit into two octets each, and the
number of groups is as small as its value allows. -/
theorem isSome_encode?_iff (d : Decimal) :
    (Numeric.ofDecimal d).encode?.isSome = true ↔ HasBinaryForm d := by
  have hscale : (Numeric.ofDecimal d).scale = max 0 d.scale := rfl
  -- the count is the one of the three that depends on the value
  have hcount := Numeric.length_groups_le_iff d (2 ^ 15 - 1)
  rw [Numeric.encode?, Option.isSome_ite, Bool.and_eq_true, Bool.and_eq_true, Numeric.isShort_iff,
    Numeric.isShort_iff, Numeric.isShort_iff, hscale, Numeric.weight_ofDecimal]
  constructor
  · rintro ⟨⟨hs, hw⟩, hc⟩
    exact ⟨hs.2, hw, hcount.1 (by omega)⟩
  · rintro ⟨hs, hw, hc⟩
    have hlength := hcount.2 hc
    exact ⟨⟨⟨by omega, hs⟩, hw⟩, by omega, by omega⟩

/-! ### What octets denote -/

/-- **Whether what was read denotes a value.** Times travel in microseconds, so for these it is said
what is cut off; all other values come back as they are. -/
def WireValue.Denotes : WireValue → SqlValue → Prop
  | .integer m, .bigInt n => m = n.toInt
  | .integer m, .int n => m = n.toInt
  | .integer m, .smallInt n => m = n.toInt
  | .integer m, .tinyInt n => m = n.toNat
  | .bool b, .bool c => b = c
  | .text s, .text u => s = u
  | .timestamp m, .dateTime t => IsTruncated m (t.nanos - serverEpoch.nanos)
  | .moment m, .offsetDateTime t =>
    IsTruncated m (t.clock.nanos - t.offset.seconds * nanosPerSecond - serverEpoch.nanos)
  | .timeOfDay m, .time t =>
    m = ((t.hour * 60 + t.minute) * 60 + t.second) * 1000000 + t.nanosecond / 1000
  | .numeric n, .decimal d => n.value = d.value ∧ n.scale = max 0 d.scale
  | .double x, .float y => x = y
  | .single x, .real y => x = y
  | .uuid u, .uuid w => u = w
  | _, _ => False

/-- A time of day without a leap second comes back from its octets: it is within the day, which the
reader asks for. -/
theorem readTimeOfDay?_bigEndian {t : TimeOfDay} (h : t.IsOrdinary) :
    readTimeOfDay? (bigEndian 8 (microsSinceMidnight t)) = some (microsSinceMidnight t) := by
  have hclock := t.secondOfDay_lt
  have hmem : 0 ≤ microsSinceMidnight t ∧ microsSinceMidnight t ≤ microsPerDay := by
    simp only [TimeOfDay.IsOrdinary, microsSinceMidnight, microsPerDay,
      TimeOfDay.nanosSinceMidnight, secondsPerDay, nanosPerSecond] at *
    omega
  have hbound : microsPerDay = 86400000000 := rfl
  rw [readTimeOfDay?, readSigned?_bigEndian (by omega) (by omega), Option.filter_some,
    if_pos (by simpa using hmem)]

/-- The microseconds of a time of day are those of its hour, minute and second. -/
theorem microsSinceMidnight_eq (t : TimeOfDay) :
    microsSinceMidnight t =
      ((t.hour * 60 + t.minute) * 60 + t.second) * 1000000 + t.nanosecond / 1000 := by
  have hsecond := t.secondOfDay_eq
  simp only [microsSinceMidnight, TimeOfDay.nanosSinceMidnight, nanosPerSecond]
  omega

/-- **The octets of a value,** read under the type of its target, denote the value. -/
theorem denotes_of_encodeValue? {v : SqlValue} {octets : Octets} (hleap : v.HasNoLeapSecond)
    (h : encodeValue? v = some octets) :
    ∃ w, (ParameterType.ofTarget v.target).read? octets = some w ∧ w.Denotes v := by
  -- each type: its octets come back to the pattern that was sent, and what that denotes is the
  -- value
  cases v with
  | bigInt n =>
    obtain rfl := Option.some.inj h
    have hlow := n.le_toInt
    have hhigh := n.toInt_lt
    have hread : readSigned? 8 (bigEndian 8 n.toInt) = some n.toInt :=
      readSigned?_bigEndian (by omega) (by omega)
    exact ⟨.integer n.toInt, congrArg (Option.map WireValue.integer) hread, rfl⟩
  | int n =>
    obtain rfl := Option.some.inj h
    have hlow := n.le_toInt
    have hhigh := n.toInt_lt
    have hread : readSigned? 4 (bigEndian 4 n.toInt) = some n.toInt :=
      readSigned?_bigEndian (by omega) (by omega)
    exact ⟨.integer n.toInt, congrArg (Option.map WireValue.integer) hread, rfl⟩
  | smallInt n =>
    obtain rfl := Option.some.inj h
    have hlow := n.le_toInt
    have hhigh := n.toInt_lt
    have hread : readSigned? 2 (bigEndian 2 n.toInt) = some n.toInt :=
      readSigned?_bigEndian (by omega) (by omega)
    exact ⟨.integer n.toInt, congrArg (Option.map WireValue.integer) hread, rfl⟩
  | tinyInt n =>
    obtain rfl := Option.some.inj h
    -- eight bits without a sign need sixteen with one
    have hhigh := n.toNat_lt
    have hread : readSigned? 2 (bigEndian 2 n.toNat) = some (n.toNat : Int) :=
      readSigned?_bigEndian (by omega) (by omega)
    exact ⟨.integer n.toNat, congrArg (Option.map WireValue.integer) hread, rfl⟩
  | bool b =>
    obtain rfl := Option.some.inj h
    exact ⟨.bool b, by cases b <;> rfl, rfl⟩
  | text s =>
    obtain rfl := Option.some.inj h
    exact ⟨.text s, congrArg (Option.map WireValue.text) (Text.Utf8.decode?_encode s), rfl⟩
  | dateTime t =>
    obtain rfl := Option.some.inj h
    obtain ⟨hlow, hhigh⟩ := microsSinceEpoch_mem t
    have hread := readSigned?_bigEndian hlow hhigh
    exact ⟨.timestamp (microsSinceEpoch t), congrArg (Option.map WireValue.timestamp) hread,
      isTruncated_tdiv _⟩
  | offsetDateTime t =>
    obtain rfl := Option.some.inj h
    obtain ⟨hlow, hhigh⟩ := microsSinceEpoch_mem t.utc
    have hread := readSigned?_bigEndian hlow hhigh
    refine ⟨.moment (microsSinceEpoch t.utc), congrArg (Option.map WireValue.moment) hread, ?_⟩
    -- what is sent is the universal time, which is the local one less the offset
    rw [WireValue.Denotes, microsSinceEpoch_eq, t.nanos_utc]
    exact isTruncated_tdiv _
  | time t =>
    obtain rfl := Option.some.inj h
    have hread := readTimeOfDay?_bigEndian hleap
    exact ⟨.timeOfDay (microsSinceMidnight t), congrArg (Option.map WireValue.timeOfDay) hread,
      microsSinceMidnight_eq t⟩
  | decimal d =>
    -- the groups have four digits each, so they are read as they are, and are worth the decimal
    have hread := Numeric.read?_of_encode? (Numeric.groups_lt d) (Int.le_max_left 0 d.scale) h
    exact ⟨.numeric (.ofDecimal d), congrArg (Option.map WireValue.numeric) hread,
      Numeric.value_ofDecimal d, rfl⟩
  | float x =>
    obtain rfl := Option.some.inj h
    have hread : readBits? 64 (bigEndian 8 x.bits.toNat) = some x.bits :=
      readBits?_bigEndian x.bits (by decide)
    exact ⟨.double x, congrArg (Option.map fun bits => WireValue.double ⟨bits⟩) hread, rfl⟩
  | real x =>
    obtain rfl := Option.some.inj h
    have hread : readBits? 32 (bigEndian 4 x.bits.toNat) = some x.bits :=
      readBits?_bigEndian x.bits (by decide)
    exact ⟨.single x, congrArg (Option.map fun bits => WireValue.single ⟨bits⟩) hread, rfl⟩
  | uuid u =>
    obtain rfl := Option.some.inj h
    have hread : readBits? 128 (bigEndian 16 u.bits.toNat) = some u.bits :=
      readBits?_bigEndian u.bits (by decide)
    exact ⟨.uuid u, congrArg (Option.map fun bits => WireValue.uuid ⟨bits⟩) hread, rfl⟩

/-! ### What is sent -/

/-- Only a decimal without a binary form has no octets. Every other type has some for each of its
values. -/
theorem encodeValue?_eq_none_iff (v : SqlValue) :
    encodeValue? v = none ↔ ∃ d, v = .decimal d ∧ ¬ HasBinaryForm d := by
  cases v with
  | decimal d =>
    have hform : ¬ HasBinaryForm d ↔ (Numeric.ofDecimal d).encode? = none := by
      rw [← isSome_encode?_iff, Bool.not_eq_true, Option.isSome_eq_false_iff,
        Option.isNone_iff_eq_none]
    constructor
    · intro h
      exact ⟨d, rfl, hform.2 h⟩
    · rintro ⟨e, he, hnot⟩
      obtain rfl := SqlValue.decimal.inj he
      exact hform.1 hnot
  | _ => simp [encodeValue?]

theorem encode_value_eq_unencodable_iff {v : SqlValue} :
    encode (.value v) = .unencodable ↔ encodeValue? v = none := by
  rw [encode]
  split <;> simp [*]

/-- **What is sent is what was bound.** Only decimals without a binary form cannot be sent. Any
other value has octets, and these, read under the type that is announced for it, denote it. -/
theorem sent_is_bound (v : SqlValue) :
    (encode (.value v) = .unencodable ↔ ∃ d, v = .decimal d ∧ ¬ HasBinaryForm d) ∧
      (v.HasNoLeapSecond → encode (.value v) ≠ .unencodable → ∃ octets w,
        encode (.value v) = .octets octets ∧ (announced (.value v)).read? octets = some w ∧
          w.Denotes v) := by
  constructor
  · exact encode_value_eq_unencodable_iff.trans (encodeValue?_eq_none_iff v)
  · intro hleap hform
    -- without octets it would be a decimal without a form
    cases hoctets : encodeValue? v with
    | none => exact absurd (encode_value_eq_unencodable_iff.2 hoctets) hform
    | some octets =>
      obtain ⟨w, hread, hdenotes⟩ := denotes_of_encodeValue? hleap hoctets
      exact ⟨octets, w, by rw [encode, hoctets], hread, hdenotes⟩

/-- Half a microsecond before the year two thousand, on a clock that is ahead. -/
def beforeEpoch : OffsetDateTime where
  clock := ⟨(Date.of? 2000 1 1).get rfl, (TimeOfDay.of? 5 29 59 999999500).get rfl⟩
  offset := (Offset.of? 19800).get rfl
  utc := ⟨(Date.of? 1999 12 31).get rfl, (TimeOfDay.of? 23 59 59 999999500).get rfl⟩
  shift_clock := by decide

/-- It is sent as the start of that year, to which it is truncated. -/
theorem sent_is_bound_beforeEpoch : SqlValue.HasNoLeapSecond (.offsetDateTime beforeEpoch) ∧
    encode (.value (.offsetDateTime beforeEpoch)) = .octets (List.replicate 8 0) ∧
    ∃ octets w, encode (.value (.offsetDateTime beforeEpoch)) = .octets octets ∧
      (announced (.value (.offsetDateTime beforeEpoch))).read? octets = some w ∧
        w.Denotes (.offsetDateTime beforeEpoch) := by
  have hleap : SqlValue.HasNoLeapSecond (.offsetDateTime beforeEpoch) :=
    show 999999500 < nanosPerSecond by decide
  have hsent : encode (.value (.offsetDateTime beforeEpoch)) = .octets (List.replicate 8 0) := by
    decide
  exact ⟨hleap, hsent, (sent_is_bound _).2 hleap (by rw [hsent]; simp)⟩

end Postgres

end QueryGateway
