import QueryGateway.Command.Descriptor

/-!
# Markers

Finding the references to parameters in the text of a command. The text is cut into segments: a
reference is a marker with a name behind it, everything else is verbatim. Quoted literals and
identifiers, dollar-quoted bodies, comments and doubled markers are verbatim as a whole, so nothing
inside them is a reference.

Which segments a text has does not depend on the parameters of the command. `splitSegment_chars`
says that no character is lost: a segment and what follows it make up the text they were cut from.
-/

namespace QueryGateway.Sql

/-! ### Characters of names -/

/-- Whether a name may begin with the character. -/
def isNameStart (c : Char) : Bool :=
  c.isAlpha || c = '_'

/-- Whether the character may stand in a name. -/
def isNameChar (c : Char) : Bool :=
  c.isAlphanum || c = '_' || c = '$'

/-- Whether a name ends right here, `before` being what stands before, nearest first. -/
def followsName (before : List Char) : Bool :=
  before.head?.any isNameChar

/-! ### Segments -/

/-- **A piece of the text of a command.** Comments, quoted text and code alike are verbatim; only a
reference may be replaced. -/
inductive Segment where
  /-- Characters that stay as they are. -/
  | verbatim (cs : List Char)
  /-- A marker and the name behind it. -/
  | reference (name : List Char)
deriving DecidableEq

/-- The characters of a segment. -/
def Segment.chars : Segment → List Char
  | .verbatim cs => cs
  | .reference name => marker :: name

/-! ### Spans -/

/-- The rest of a quoted span up to its closing quote, and what follows. With `escapes`, a backslash
takes the next character along. -/
def splitQuoted (quote : Char) (escapes : Bool) : List Char → List Char × List Char
  | [] => ([], [])
  -- a span that is never closed runs to the end
  | [c] => ([c], [])
  | c :: d :: cs =>
    if escapes && c = '\\' then
      let (inner, rest) := splitQuoted quote escapes cs
      (c :: d :: inner, rest)
    else if c = quote then ([c], d :: cs)
    else
      let (inner, rest) := splitQuoted quote escapes (d :: cs)
      (c :: inner, rest)

/-- Whether a backslash escapes in a literal that opens after `before`: a lone letter E stands
there. -/
def opensEscapes (before : List Char) : Bool :=
  match before with
  | c :: earlier => (c = 'E' || c = 'e') && !followsName earlier
  | [] => false

/-- The characters through the first occurrence of a mark, or all of them, and what follows. -/
def splitThrough (mark : List Char) : List Char → List Char × List Char
  | [] => ([], [])
  | c :: cs =>
    if mark.isPrefixOf (c :: cs) then (mark, (c :: cs).drop mark.length)
    else
      let (inner, rest) := splitThrough mark cs
      (c :: inner, rest)

/-- The tag of a dollar quote, between its two dollars, if one opens with the characters behind a
dollar. -/
def dollarTag? (cs : List Char) : Option (List Char) :=
  let tag := cs.takeWhile fun c => c.isAlphanum || c = '_'
  if (cs.drop tag.length).head? = some '$' && !cs.head?.any Char.isDigit then some tag else none

/-- **The first segment** of the characters `c :: cs` behind `before`, and what follows it. -/
def splitSegment (before : List Char) (c : Char) (cs : List Char) : Segment × List Char :=
  if c = '\x27' || c = '"' then
    let (inner, rest) := splitQuoted c (c = '\x27' && opensEscapes before) cs
    (.verbatim (c :: inner), rest)
  else if c = '$' then
    -- a dollar inside a name opens nothing
    match (if followsName before then none else dollarTag? cs) with
    | some tag =>
      let (inner, rest) := splitThrough ('$' :: tag ++ ['$']) (cs.drop (tag.length + 1))
      (.verbatim (c :: tag ++ '$' :: inner), rest)
    | none => (.verbatim [c], cs)
  else if c = '-' && cs.head? = some '-' then
    -- the line end is not part of the comment
    (.verbatim (c :: cs.takeWhile (· != '\n')), cs.dropWhile (· != '\n'))
  else if c = '/' && cs.head? = some '*' then
    let (inner, rest) := splitThrough ['*', '/'] (cs.drop 1)
    (.verbatim (c :: '*' :: inner), rest)
  else if c = marker && cs.head? = some marker then (.verbatim [c, marker], cs.drop 1)
  else if c = marker && cs.head?.any isNameStart && !followsName before then
    (.reference (cs.takeWhile isNameChar), cs.dropWhile isNameChar)
  else (.verbatim [c], cs)

theorem splitQuoted_append (quote : Char) (escapes : Bool) (cs : List Char) :
    (splitQuoted quote escapes cs).1 ++ (splitQuoted quote escapes cs).2 = cs := by
  fun_induction splitQuoted quote escapes cs <;> simp_all

theorem splitThrough_append (mark cs : List Char) :
    (splitThrough mark cs).1 ++ (splitThrough mark cs).2 = cs := by
  fun_induction splitThrough mark cs with
  | case1 => rfl
  | case2 c cs h =>
    obtain ⟨t, ht⟩ := List.isPrefixOf_iff_prefix.1 h
    simp [← ht]
  | case3 c cs h inner rest hs ih => simp_all

theorem drop_of_dollarTag? {cs tag : List Char} (h : dollarTag? cs = some tag) :
    tag ++ '$' :: cs.drop (tag.length + 1) = cs := by
  unfold dollarTag? at h
  simp only [Option.ite_none_right_eq_some, Bool.and_eq_true, decide_eq_true_eq,
    Option.some.injEq] at h
  obtain ⟨⟨hd, -⟩, rfl⟩ := h
  -- the tag is what `takeWhile` took, so the rest begins behind it
  generalize htag : List.takeWhile (fun c => c.isAlphanum || decide (c = '_')) cs = tag at hd
  have hpre : tag ++ cs.drop tag.length = cs := by
    obtain ⟨t, ht⟩ := List.takeWhile_prefix (l := cs) fun c => c.isAlphanum || decide (c = '_')
    rw [htag] at ht
    rw [← ht, List.drop_left]
  rw [← List.drop_drop]
  cases hr : cs.drop tag.length with
  | nil => simp [hr] at hd
  | cons d rest =>
    rw [hr] at hpre
    simp only [hr, List.head?_cons, Option.some.injEq] at hd
    subst hd
    simpa using hpre

/-- No character is lost: a segment and what follows it make up the characters. -/
theorem splitSegment_chars (before : List Char) (c : Char) (cs : List Char) :
    (splitSegment before c cs).1.chars ++ (splitSegment before c cs).2 = c :: cs := by
  unfold splitSegment
  split
  · simp [Segment.chars, splitQuoted_append]
  split
  · -- a dollar: either the tag of a quote was found, or it stands alone
    split
    · next tag htag =>
      have ht : dollarTag? cs = some tag := by
        split at htag
        · simp at htag
        · exact htag
      simp only [Segment.chars, List.cons_append, List.append_assoc, splitThrough_append,
        drop_of_dollarTag? ht]
    · simp [Segment.chars]
  split
  · simp [Segment.chars]
  split
  · next h =>
    obtain ⟨-, h⟩ := Bool.and_eq_true_iff.1 h
    cases cs with
    | nil => simp at h
    | cons d rest =>
      simp only [List.head?_cons, Option.some.injEq, decide_eq_true_eq] at h
      simp [Segment.chars, splitThrough_append, h]
  split
  · next h =>
    obtain ⟨-, h⟩ := Bool.and_eq_true_iff.1 h
    cases cs with
    | nil => simp at h
    | cons d rest =>
      simp only [List.head?_cons, Option.some.injEq, decide_eq_true_eq] at h
      simp [Segment.chars, h]
  split
  · next h =>
    simp only [Bool.and_eq_true, decide_eq_true_eq] at h
    simp [Segment.chars, h.1.1]
  · simp [Segment.chars]

/-- What follows a segment is shorter than the characters it was cut from. -/
theorem splitSegment_length_le (before : List Char) (c : Char) (cs : List Char) :
    (splitSegment before c cs).2.length ≤ cs.length := by
  have h := congrArg List.length (splitSegment_chars before c cs)
  -- every segment takes at least the character `c`
  have hpos : 1 ≤ (splitSegment before c cs).1.chars.length := by
    unfold splitSegment
    repeat' split
    all_goals simp [Segment.chars]
  simp only [List.length_append, List.length_cons] at h
  omega

/-! ### The segments of a text -/

/-- The segments of the characters behind `before`. What has been passed goes along, in reverse, as
the next segment may depend on what stands right before it. -/
def segmentsAfter (before : List Char) : List Char → List Segment
  | [] => []
  | c :: cs =>
    let next := splitSegment before c cs
    next.1 :: segmentsAfter (next.1.chars.reverse ++ before) next.2
termination_by cs => cs.length
decreasing_by
  have := splitSegment_length_le before c cs
  simp only [List.length_cons]
  omega

/-- **The segments of the text of a command.** -/
def segments (cs : List Char) : List Segment :=
  segmentsAfter [] cs

end QueryGateway.Sql
