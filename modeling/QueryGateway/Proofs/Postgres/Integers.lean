import Mathlib.Tactic.Ring
import QueryGateway.Postgres.Cell
import QueryGateway.Postgres.Numeric

/-!
# Integers in octets

Octets are read as they are written: the octets of an integer have the integer for their value, if
it fits (`signedValue_bigEndian`), and those of a natural number have the number
(`unsignedValue_bigEndian`). Both come from one fact about the octets of a pattern
(`foldl_octets`), which says what they are worth behind octets that were read before; the signs are
a matter of the pattern alone.
-/

namespace QueryGateway.Postgres

/-- The natural number in octets, the most significant first. -/
def unsignedValue (octets : Octets) : Nat :=
  octets.foldl (fun n o => 256 * n + o.toNat) 0

theorem signedValue_eq (octets : Octets) :
    signedValue octets = Int.bmod (unsignedValue octets) (256 ^ octets.length) := rfl

@[simp] theorem length_bigEndian (size : Nat) (n : Int) : (bigEndian size n).length = size := by
  simp [bigEndian]

/-- The octets of a pattern, read behind others that are worth `before`. -/
theorem foldl_octets (size pattern before : Nat) :
    ((List.range size).map fun i => UInt8.ofNat (pattern / Nat.pow 2 (8 * i))).reverse.foldl
        (fun n o => 256 * n + o.toNat) before =
      before * 256 ^ size + pattern % 256 ^ size := by
  induction size generalizing before with
  | zero => simp [Nat.mod_one]
  | succ size ih =>
    have hpower : Nat.pow 2 (8 * size) = 256 ^ size := Nat.pow_mul 2 8 size
    -- one octet more takes the next eight bits of the pattern
    have hoctet : (UInt8.ofNat (pattern / 256 ^ size)).toNat = pattern / 256 ^ size % 256 :=
      UInt8.toNat_ofNat'
    have hsplit : pattern % 256 ^ (size + 1) =
        pattern % 256 ^ size + 256 ^ size * (pattern / 256 ^ size % 256) :=
      Nat.mod_pow_succ
    rw [List.range_succ, List.map_append, List.reverse_append, List.map_singleton,
      List.reverse_singleton, List.singleton_append, List.foldl_cons, ih, hpower, hoctet, hsplit]
    ring

/-- The octets of a number are worth it modulo their range; a negative one comes out as its
complement. -/
theorem unsignedValue_bigEndian_eq (size : Nat) (n : Int) :
    unsignedValue (bigEndian size n) = (n % 256 ^ size).toNat := by
  have hpower : Nat.pow 2 (8 * size) = 256 ^ size := Nat.pow_mul 2 8 size
  -- the pattern is below the range, so nothing of it is lost
  have hlt : (n % (256 ^ size : Nat)).toNat < 256 ^ size := by
    have hpos : 0 < 256 ^ size := Nat.pow_pos (by decide)
    omega
  rw [unsignedValue, bigEndian, foldl_octets, hpower, Nat.zero_mul, Nat.zero_add,
    Nat.mod_eq_of_lt hlt]
  push_cast
  rfl

/-- **A natural number that fits** is read back. -/
theorem unsignedValue_bigEndian {size n : Nat} (h : n < 256 ^ size) :
    unsignedValue (bigEndian size n) = n := by
  rw [unsignedValue_bigEndian_eq]
  have hmod : (n : Int) % 256 ^ size = n :=
    Int.emod_eq_of_lt (Int.natCast_nonneg n) (by exact_mod_cast h)
  rw [hmod, Int.toNat_natCast]

/-- **An integer that fits** is read back. -/
theorem signedValue_bigEndian {size : Nat} {n : Int} (hlow : -256 ^ size ≤ 2 * n)
    (hhigh : 2 * n < 256 ^ size) : signedValue (bigEndian size n) = n := by
  have hpos : (0 : Int) < 256 ^ size := Int.pow_pos (by decide)
  have hpattern : ((n % 256 ^ size).toNat : Int) = n % (256 ^ size : Nat) := by
    rw [Int.toNat_of_nonneg (Int.emod_nonneg n hpos.ne')]
    push_cast
    rfl
  rw [signedValue_eq, length_bigEndian, unsignedValue_bigEndian_eq, hpattern, Int.emod_bmod]
  -- the remainder that lies closest to zero is the integer itself
  exact Int.bmod_eq_of_le_mul_two (by push_cast; omega) (by push_cast; omega)

end QueryGateway.Postgres
