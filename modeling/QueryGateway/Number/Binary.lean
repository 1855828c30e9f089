import QueryGateway.Text.Digits
import QueryGateway.Text.LowerCase

/-!
# Binary floating point

Floating-point numbers as bit patterns. A `Format` fixes the sizes of the fields, and every
magnitude of a format is a whole count of its smallest positive number, the **unit**: the pattern
of a magnitude, read as a number, is `shift * hidden + significand` for the magnitude
`significand * 2 ^ shift` units. Subnormal and normal numbers, the carry into the next power of two
and infinity all obey this one equation, so rounding is a single definition:

* `Format.roundRatio` rounds a quotient of naturals to the nearest pattern, a half to the even one;
* `Binary.units` is the count of units of a pattern;
* `Binary.ofText?` reads the decimal form of a number and rounds once.
-/

namespace QueryGateway.Number

open Text

/-- **Rounding a quotient** to the nearest natural, a half to the even one. -/
def roundQuotient (num den : Nat) : Nat :=
  let q := num / den
  let r := num % den
  if 2 * r < den then q
  else if den < 2 * r then q + 1
  else q + q % 2

/-! ### Formats -/

/-- The sizes of the fields of a binary floating-point format. Both precisions of the program are
formats of this kind, so what holds of one holds of the other. -/
structure Format where
  /-- The bits of a significand, the leading one included. -/
  precision : Nat
  /-- The bits of the exponent field. -/
  exponentBits : Nat
deriving DecidableEq

namespace Format

/-- Double precision. -/
def double : Format := ⟨53, 11⟩

/-- Single precision. -/
def single : Format := ⟨24, 8⟩

/-- The number of bits of a pattern. -/
def width (f : Format) : Nat :=
  f.precision + f.exponentBits

/-- The least significand of a normal number. -/
def hidden (f : Format) : Nat :=
  Nat.pow 2 (f.precision - 1)

/-- The unit is two to the power of minus this number. -/
def unitExponent (f : Format) : Nat :=
  Nat.pow 2 (f.exponentBits - 1) - 2 + (f.precision - 1)

/-- The pattern of positive infinity, above all patterns of positive numbers. -/
def infinity (f : Format) : Nat :=
  (Nat.pow 2 f.exponentBits - 1) * f.hidden

/-- The pattern of the number that is not one, with no sign and no payload. -/
def notANumber (f : Format) : Nat :=
  f.infinity + f.hidden / 2

/-- The sign bit. -/
def signBit (f : Format) : Nat :=
  Nat.pow 2 (f.width - 1)

/-- **Rounding to a format.** The pattern nearest to a quotient: the quotient is counted in units,
shifted down to the precision of the format and rounded once; what exceeds the largest number is
infinity. -/
def roundRatio (f : Format) (num den : Nat) : Nat :=
  let scaled := num * Nat.pow 2 f.unitExponent
  let shift := (scaled / den).log2 - (f.precision - 1)
  min f.infinity (shift * f.hidden + roundQuotient scaled (den * Nat.pow 2 shift))

/-- The pattern nearest to `significand * 10 ^ exponent`. Powers of ten beyond the range of every
format are settled without computing them. -/
def roundDecimal (f : Format) (significand : Nat) (exponent : Int) : Nat :=
  let order := exponent + (digits significand).length
  if significand = 0 then 0
  else if 400 < order then f.infinity
  else if order < -400 then 0
  else if 0 ≤ exponent then f.roundRatio (significand * Nat.pow 10 exponent.toNat) 1
  else f.roundRatio significand (Nat.pow 10 (-exponent).toNat)

end Format

/-! ### Numbers of a format -/

/-- A floating-point number of a format: its bit pattern. -/
structure Binary (f : Format) where
  /-- The sign bit, the exponent field and the significand without its leading one. -/
  bits : BitVec f.width
deriving DecidableEq

/-- A double-precision number. -/
abbrev Double := Binary .double

/-- A single-precision number. -/
abbrev Single := Binary .single

namespace Binary

variable {f : Format}

/-- The number with a sign and the pattern of a magnitude. -/
def ofMagnitude (f : Format) (negative : Bool) (magnitude : Nat) : Binary f :=
  ⟨BitVec.ofNat f.width (if negative then f.signBit + magnitude else magnitude)⟩

/-- Whether the sign bit is set. -/
def isNegative (x : Binary f) : Bool :=
  f.signBit ≤ x.bits.toNat

/-- The pattern without its sign. -/
def magnitude (x : Binary f) : Nat :=
  x.bits.toNat % f.signBit

/-- Whether the pattern is that of no number. -/
def isNaN (x : Binary f) : Bool :=
  f.infinity < x.magnitude

/-- Whether the pattern is one of the two infinities. -/
def isInfinite (x : Binary f) : Bool :=
  x.magnitude = f.infinity

/-- The power of two by which the significand of a magnitude is shifted. -/
def shift (x : Binary f) : Nat :=
  x.magnitude / f.hidden - 1

/-- The significand of a magnitude, with its leading one unless it is subnormal. -/
def significand (x : Binary f) : Nat :=
  x.magnitude - x.shift * f.hidden

/-- **The count of units** of a finite number, apart from its sign. -/
def units (x : Binary f) : Nat :=
  x.significand * Nat.pow 2 x.shift

/-- The number nearest to an integer. -/
def ofInt (f : Format) (n : Int) : Binary f :=
  ofMagnitude f (n < 0) (f.roundRatio n.natAbs 1)

/-- **Narrowing** to single precision: finite numbers round, infinities stay, and what is no number
keeps its sign and the upper bits of its payload. -/
def narrow (x : Double) : Single :=
  if x.isNaN then
    -- the leading bit of the payload is set, so that the pattern cannot become infinity
    let payload := x.magnitude / Nat.pow 2 29 % Format.single.hidden
    ofMagnitude .single x.isNegative
      (Format.single.infinity + Format.single.hidden / 2 + payload % (Format.single.hidden / 2))
  else if x.isInfinite then ofMagnitude .single x.isNegative Format.single.infinity
  else
    ofMagnitude .single x.isNegative
      (Format.single.roundRatio x.units (Nat.pow 2 Format.double.unitExponent))

/-! ### Reading -/

/-- The decimal numeral in the characters, as a significand and a power of ten: digits with a point
among or around them, and an exponent after a letter `e` of either case. -/
def numeral? (cs : List Char) : Option (Nat × Int) :=
  let whole := cs.takeWhile Char.isDigit
  let (fraction, rest) :=
    match cs.dropWhile Char.isDigit with
    | '.' :: more => (more.takeWhile Char.isDigit, more.dropWhile Char.isDigit)
    | more => ([], more)
  if whole.isEmpty && fraction.isEmpty then none
  else
    let significand := valueOfDigits (whole ++ fraction)
    match rest with
    | [] => some (significand, -(fraction.length : Int))
    | mark :: exponent =>
      if mark = 'e' || mark = 'E' then
        (signed? exponent).map fun e => (significand, e - fraction.length)
      else none

/-- The pattern of the magnitude in the characters: a numeral, or one of the words for infinity and
for no number in any case. -/
def magnitude? (f : Format) (cs : List Char) : Option Nat :=
  match numeral? cs with
  | some (significand, exponent) => some (f.roundDecimal significand exponent)
  | none =>
    let word := String.ofList (cs.map asciiLowerChar)
    if word = "inf" || word = "infinity" then some f.infinity
    else if word = "nan" then some f.notANumber
    else none

/-- **Reading a number:** an optional sign and a magnitude. -/
def ofText? (f : Format) : List Char → Option (Binary f)
  | '-' :: cs => (magnitude? f cs).map (ofMagnitude f true)
  | '+' :: cs => (magnitude? f cs).map (ofMagnitude f false)
  | cs => (magnitude? f cs).map (ofMagnitude f false)

end Binary

end QueryGateway.Number
