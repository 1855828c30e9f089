/-!
# Blank text

Which characters are blank, and trimming. Blank means the Unicode property White_Space: the ASCII
control blanks from tab to carriage return, the space, and nineteen characters beyond ASCII. The
byte order mark and the zero-width space are not blank.

Every setting, key, token and value of the gateway that is compared "apart from surrounding blanks"
is compared through `trim`.
-/

namespace QueryGateway.Text

/-- **Blank characters.** The characters with the Unicode property White_Space, whether or not they
are seen as space. -/
def isBlank (c : Char) : Bool :=
  let n := c.toNat
  (0x09 ≤ n && n ≤ 0x0D) || n == 0x20 || n == 0x85 || n == 0xA0 || n == 0x1680 ||
    (0x2000 ≤ n && n ≤ 0x200A) || n == 0x2028 || n == 0x2029 || n == 0x202F || n == 0x205F ||
    n == 0x3000

/-- The characters without the blanks in front. -/
def skipBlanks (cs : List Char) : List Char :=
  cs.dropWhile isBlank

/-- The characters without the blanks at both ends. -/
def trimChars (cs : List Char) : List Char :=
  (skipBlanks (skipBlanks cs).reverse).reverse

/-- The text without the blanks at both ends. -/
def trim (s : String) : String :=
  String.ofList (trimChars s.toList)

/-- Whether nothing but blanks stands in the text, so that trimming leaves nothing. -/
def isAllBlank (s : String) : Bool :=
  s.toList.all isBlank

end QueryGateway.Text
