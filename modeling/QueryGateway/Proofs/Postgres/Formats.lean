import Mathlib.Data.List.Basic
import QueryGateway.Postgres.Wire
import QueryGateway.Proofs.Postgres.Integers

/-!
# Binary formats

How octets are read under the types of parameters. The type alone says how: it fixes the number of
octets and what they stand for, and octets that do not have the form of the type are not read. The
readers know nothing of the values that were written, so a value that is announced under one type
and written in the form of another is read as something else or not at all.

These are the formats as such. What a server refuses beyond them, such as years that it does not
count or a character zero in a text, is not their concern.
-/

namespace QueryGateway.Postgres

open Number

/-! ### What is read -/

/-- **What octets stand for** under a type. It is said by a reader of the wire's own, which knows
nothing of how parameters are encoded here. -/
inductive WireValue where
  | integer (n : Int)
  | bool (b : Bool)
  | text (s : String)
  /-- A date-time on some clock, in microseconds since the start of the year two thousand there. -/
  | timestamp (micros : Int)
  /-- A moment, in microseconds since the start of the year two thousand in universal time. -/
  | moment (micros : Int)
  /-- A time of day, in microseconds since midnight. -/
  | timeOfDay (micros : Int)
  | numeric (n : Numeric)
  | double (x : Double)
  | single (x : Single)
  | uuid (u : Uuid)

/-- The integer in a fixed number of octets. -/
def readSigned? (size : Nat) (octets : Octets) : Option Int :=
  if octets.length = size then some (signedValue octets) else none

/-- The natural number in a fixed number of octets. -/
def readUnsigned? (size : Nat) (octets : Octets) : Option Nat :=
  if octets.length = size then some (unsignedValue octets) else none

/-- The bits in as many octets as they fill. -/
def readBits? (width : Nat) (octets : Octets) : Option (BitVec width) :=
  (readUnsigned? (width / 8) octets).map (BitVec.ofNat width)

/-- The most microseconds of a time of day: midnight at the end of the day. -/
def microsPerDay : Int := 86400000000

/-- The microseconds of a time of day. -/
def readTimeOfDay? (octets : Octets) : Option Int :=
  (readSigned? 8 octets).filter fun micros => 0 ≤ micros && micros ≤ microsPerDay

/-- Groups of four decimal digits, in two octets each. -/
def readGroups? : Octets → Option (List Nat)
  | [] => some []
  | [_] => none
  | a :: b :: rest =>
    if unsignedValue [a, b] < 10000 then (readGroups? rest).map (unsignedValue [a, b] :: ·)
    else none

/-- **Reading a numeric:** the count of its groups, the weight, the sign, the number of digits shown
after the point, and the groups. -/
def Numeric.read? : Octets → Option Numeric
  | c₁ :: c₀ :: w₁ :: w₀ :: s₁ :: s₀ :: p₁ :: p₀ :: rest =>
    match readGroups? rest with
    | none => none
    | some groups =>
      let sign := unsignedValue [s₁, s₀]
      if groups.length = unsignedValue [c₁, c₀] ∧ (sign = 0 ∨ sign = 0x4000) then
        some ⟨sign = 0x4000, groups, signedValue [w₁, w₀], unsignedValue [p₁, p₀]⟩
      else none
  | _ => none

/-- **Reading octets under a type.** The widths are those of the types, so octets of another length
stand for nothing. -/
def ParameterType.read? : ParameterType → Octets → Option WireValue
  | .int8, octets => (readSigned? 8 octets).map .integer
  | .int4, octets => (readSigned? 4 octets).map .integer
  | .int2, octets => (readSigned? 2 octets).map .integer
  | .bool, octets => (readUnsigned? 1 octets).map fun n => .bool (n != 0)
  | .text, octets => (Text.Utf8.decode? octets).map .text
  | .timestamp, octets => (readSigned? 8 octets).map .timestamp
  | .timestampTz, octets => (readSigned? 8 octets).map .moment
  | .time, octets => (readTimeOfDay? octets).map .timeOfDay
  | .numeric, octets => (Numeric.read? octets).map .numeric
  | .float8, octets => (readBits? 64 octets).map fun bits => .double ⟨bits⟩
  | .float4, octets => (readBits? 32 octets).map fun bits => .single ⟨bits⟩
  | .uuid, octets => (readBits? 128 octets).map fun bits => .uuid ⟨bits⟩

/-! ### Octets as they are written -/

theorem readSigned?_bigEndian {size : Nat} {n : Int} (hlow : -256 ^ size ≤ 2 * n)
    (hhigh : 2 * n < 256 ^ size) : readSigned? size (bigEndian size n) = some n := by
  rw [readSigned?, if_pos (length_bigEndian size n), signedValue_bigEndian hlow hhigh]

theorem readUnsigned?_bigEndian {size n : Nat} (h : n < 256 ^ size) :
    readUnsigned? size (bigEndian size n) = some n := by
  rw [readUnsigned?, if_pos (length_bigEndian size n), unsignedValue_bigEndian h]

theorem readBits?_bigEndian {width : Nat} (bits : BitVec width)
    (h : 2 ^ width = 256 ^ (width / 8)) :
    readBits? width (bigEndian (width / 8) bits.toNat) = some bits := by
  have hlt : bits.toNat < 256 ^ (width / 8) := h ▸ bits.isLt
  rw [readBits?, readUnsigned?_bigEndian hlt, Option.map_some, BitVec.ofNat_toNat,
    BitVec.setWidth_eq]

theorem exists_pair_bigEndian (n : Int) : ∃ a b, bigEndian 2 n = [a, b] :=
  List.length_eq_two.1 (length_bigEndian 2 n)

/-- Groups are read as they are written, two octets for each: a group below ten thousand is within
the range of the reader, which asks for that. -/
theorem readGroups?_flatMap {groups : List Nat} (h : ∀ g ∈ groups, g < 10000) :
    readGroups? (groups.flatMap fun (g : Nat) => bigEndian 2 g) = some groups := by
  induction groups with
  | nil => rfl
  | cons g groups ih =>
    have hg : g < 10000 := h g List.mem_cons_self
    have hvalue : unsignedValue (bigEndian 2 g) = g :=
      unsignedValue_bigEndian (hg.trans_le (by decide))
    obtain ⟨a, b, hpair⟩ := exists_pair_bigEndian g
    rw [hpair] at hvalue
    rw [List.flatMap_cons, hpair, List.cons_append, List.cons_append, List.nil_append, readGroups?,
      hvalue, if_pos hg, ih fun x hx => h x (List.mem_cons_of_mem g hx)]
    rfl

namespace Numeric

theorem isShort_iff {n : Int} : isShort n = true ↔ -2 ^ 15 ≤ n ∧ n < 2 ^ 15 := by
  have hpower : Int.pow 2 15 = 2 ^ 15 := rfl
  rw [isShort, hpower, Bool.and_eq_true, decide_eq_true_iff, decide_eq_true_iff]

/-- **A numeric is read as it is written,** if its groups have four digits. -/
theorem read?_of_encode? {n : Numeric} {octets : Octets} (hgroups : ∀ g ∈ n.groups, g < 10000)
    (hscale : 0 ≤ n.scale) (h : n.encode? = some octets) : read? octets = some n := by
  unfold encode? at h
  rw [Option.ite_none_right_eq_some, Bool.and_eq_true, Bool.and_eq_true, isShort_iff, isShort_iff,
    isShort_iff] at h
  obtain ⟨⟨⟨hs, hw⟩, hc⟩, heq⟩ := h
  obtain rfl := Option.some.inj heq
  -- each of the four counts is read from its own pair of octets
  have hcount : unsignedValue (bigEndian 2 n.groups.length) = n.groups.length :=
    unsignedValue_bigEndian (by omega)
  have hweight : signedValue (bigEndian 2 n.weight) = n.weight :=
    signedValue_bigEndian (by omega) (by omega)
  have hsign : unsignedValue (bigEndian 2 (signWord n.isNegative)) =
      if n.isNegative then 0x4000 else 0 := by
    cases n.isNegative <;> decide
  have hshown : (unsignedValue (bigEndian 2 n.scale) : Int) = n.scale := by
    obtain ⟨k, hk⟩ := Int.eq_ofNat_of_zero_le hscale
    rw [hk, unsignedValue_bigEndian (by omega)]
  -- each field takes two octets, and the reader splits them off in the same order
  obtain ⟨c₁, c₀, hc'⟩ := exists_pair_bigEndian n.groups.length
  obtain ⟨w₁, w₀, hw'⟩ := exists_pair_bigEndian n.weight
  obtain ⟨s₁, s₀, hs'⟩ := exists_pair_bigEndian (signWord n.isNegative)
  obtain ⟨p₁, p₀, hp'⟩ := exists_pair_bigEndian n.scale
  rw [hc'] at hcount
  rw [hw'] at hweight
  rw [hs'] at hsign
  rw [hp'] at hshown
  -- the reader checks that the count is that of the groups, and that the sign is one of the two
  -- words
  have hform : (n.groups.length = unsignedValue [c₁, c₀] ∧
      (unsignedValue [s₁, s₀] = 0 ∨ unsignedValue [s₁, s₀] = 0x4000)) := by
    refine ⟨hcount.symm, ?_⟩
    rw [hsign]
    cases n.isNegative
    · exact Or.inl rfl
    · exact Or.inr rfl
  have hnegative : decide (unsignedValue [s₁, s₀] = 0x4000) = n.isNegative := by
    rw [hsign]
    cases n.isNegative <;> rfl
  rw [hc', hw', hs', hp']
  simp only [List.cons_append, List.nil_append, read?, readGroups?_flatMap hgroups, if_pos hform,
    hnegative, hweight, hshown]

end Numeric

end QueryGateway.Postgres
