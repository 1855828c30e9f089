/-!
# Characters of XML

The characters that may stand in a document, the blanks of its markup, and the characters of names.
-/

namespace QueryGateway.Xml

/-- The blanks of markup. -/
def isSpace (c : Char) : Bool :=
  c = ' ' || c = '\t' || c = '\n' || c = '\r'

/-- Whether the character may stand in a document at all. -/
def isAllowed (c : Char) : Bool :=
  if c.toNat < 0x20 then isSpace c else c.toNat != 0xFFFE && c.toNat != 0xFFFF

/-- The characters beyond ASCII with which a name may begin, as closed ranges. -/
def nameStartRanges : List (Nat × Nat) :=
  [(0xC0, 0xD6), (0xD8, 0xF6), (0xF8, 0x2FF), (0x370, 0x37D), (0x37F, 0x1FFF), (0x200C, 0x200D),
    (0x2070, 0x218F), (0x2C00, 0x2FEF), (0x3001, 0xD7FF), (0xF900, 0xFDCF), (0xFDF0, 0xFFFD),
    (0x10000, 0xEFFFF)]

/-- Whether a name may begin with the character. -/
def isNameStart (c : Char) : Bool :=
  if c.toNat ≤ 0x80 then c.isAlpha || c = ':' || c = '_'
  else nameStartRanges.any fun r => r.1 ≤ c.toNat && c.toNat ≤ r.2

/-- Whether the character may stand in a name. Beyond ASCII a few marks may go on a name that none
may begin. -/
def isNameChar (c : Char) : Bool :=
  if c.toNat ≤ 0x80 then c.isAlphanum || c = ':' || c = '_' || c = '-' || c = '.'
  else
    isNameStart c || c.toNat = 0xB7 || (0x300 ≤ c.toNat && c.toNat ≤ 0x36F) ||
      (0x203F ≤ c.toNat && c.toNat ≤ 0x2040)

end QueryGateway.Xml
