/-!
# Octets and text

Text travels and is stored as UTF-8. `encode` gives the octets of a text, `decode?` gives back the
text of well-formed octets and nothing for any other, and `decodeLossy` replaces what is not
well-formed by the replacement character: one for each longest run of octets that starts a
character and is then cut short, or one for a single octet that starts none.
-/

namespace QueryGateway

/-- A sequence of octets. -/
abbrev Octets := List UInt8

namespace Text.Utf8

/-- The octets of a text. -/
def encode (s : String) : Octets :=
  s.toUTF8.toList

/-! ### One character -/

/-- What the first octets of a sequence are. Broken octets come with their number as well, so that a
replacing decoder puts one character for them together. -/
inductive Lead where
  /-- A whole character, and how many octets it takes. -/
  | char (c : Char) (size : Nat)
  /-- No character: how many octets are replaced together. -/
  | broken (size : Nat)

/-- The octets that continue a character. -/
def isTail (b : UInt8) : Bool :=
  0x80 ≤ b && b ≤ 0xBF

/-- The six value bits of a continuing octet. -/
def tailBits (b : UInt8) : Nat :=
  b.toNat % 64

/-- The least and the greatest second octet after a first one, which keeps out overlong forms,
surrogates and numbers beyond the last character. -/
def secondRange (first : UInt8) : UInt8 × UInt8 :=
  if first = 0xE0 then (0xA0, 0xBF)
  else if first = 0xED then (0x80, 0x9F)
  else if first = 0xF0 then (0x90, 0xBF)
  else if first = 0xF4 then (0x80, 0x8F)
  else (0x80, 0xBF)

/-- Whether the octet may follow the first octet of a character. -/
def isSecond (first second : UInt8) : Bool :=
  (secondRange first).1 ≤ second && second ≤ (secondRange first).2

/-- What a non-empty sequence of octets begins with. The first octet says how many follow, and the
second is held to a narrower range for some of them, which excludes longer forms than needed and
halves of characters. -/
def lead (a : UInt8) (rest : Octets) : Lead :=
  if a < 0x80 then .char (Char.ofNat a.toNat) 1
  else if 0xC2 ≤ a && a ≤ 0xDF then
    match rest with
    | b :: _ =>
      if isTail b then .char (Char.ofNat (a.toNat % 32 * 64 + tailBits b)) 2 else .broken 1
    | [] => .broken 1
  else if 0xE0 ≤ a && a ≤ 0xEF then
    match rest with
    | b :: more =>
      if isSecond a b then
        match more with
        | c :: _ =>
          if isTail c then .char (Char.ofNat ((a.toNat % 16 * 64 + tailBits b) * 64 + tailBits c)) 3
          else .broken 2
        | [] => .broken 2
      else .broken 1
    | [] => .broken 1
  else if 0xF0 ≤ a && a ≤ 0xF4 then
    match rest with
    | b :: more =>
      if isSecond a b then
        match more with
        | c :: last =>
          if isTail c then
            match last with
            | d :: _ =>
              if isTail d then
                .char (Char.ofNat
                  (((a.toNat % 8 * 64 + tailBits b) * 64 + tailBits c) * 64 + tailBits d)) 4
              else .broken 3
            | [] => .broken 3
          else .broken 2
        | [] => .broken 2
      else .broken 1
    | [] => .broken 1
  else .broken 1

/-! ### Whole texts -/

/-- The characters of well-formed octets. One broken sequence is enough for there to be none. -/
def decodeChars? : Octets → Option (List Char)
  | [] => some []
  | a :: rest =>
    match lead a rest with
    | .char c size => (decodeChars? (rest.drop (size - 1))).map (c :: ·)
    | .broken _ => none
termination_by octets => octets.length
decreasing_by
  simp only [List.length_drop, List.length_cons]
  omega

/-- **The text of well-formed octets,** and nothing if a single octet is out of place. -/
def decode? (octets : Octets) : Option String :=
  (decodeChars? octets).map String.ofList

/-- The characters of any octets, with a replacement character for each broken run. -/
def decodeLossyChars : Octets → List Char
  | [] => []
  | a :: rest =>
    match lead a rest with
    | .char c size => c :: decodeLossyChars (rest.drop (size - 1))
    | .broken size => '\uFFFD' :: decodeLossyChars (rest.drop (size - 1))
termination_by octets => octets.length
decreasing_by
  all_goals
    simp only [List.length_drop, List.length_cons]
    omega

/-- The text of any octets, with a replacement character for each broken run. -/
def decodeLossy (octets : Octets) : String :=
  String.ofList (decodeLossyChars octets)

end Text.Utf8

end QueryGateway
