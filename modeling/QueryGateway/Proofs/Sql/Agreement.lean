import QueryGateway.Proofs.Sql.Cuts

/-!
# Segments and lexemes

Where the cutting into segments agrees with the cutting into lexemes. `Lexeme.isRegular` says of a
lexeme that it does. Behind regular lexemes the two cuttings are in step (`isCut_of_areRegular`),
and a regular lexeme is kept as it is (`isKept_of_isRegular`), but for two kinds that a segment may
take together with what follows: a marker before a word, and a comment to the end of a line before a
carriage return.

What is not regular is what segments lose sight of: a literal in which a backslash escapes a quote
where it is not taken to, letters beyond ASCII where it matters whether a word goes on, dollars that
are joined to numbers, comments within comments, and lines that end with a carriage return alone.
-/

namespace QueryGateway.Sql

/-! ### What is regular -/

/-- Whether every dollar follows a character of a name. Then none of them opens a body, for the
segments as for the lexer. -/
def dollarsFollowNames (before : List Char) : List Char → Bool
  | [] => true
  | c :: cs => (c ≠ '$' || followsName before) && dollarsFollowNames (c :: before) cs

/-- **Whether segments do a lexeme no harm,** between `before` and `rest`. Each clause excludes one
way in which the two readings of a text come apart. -/
def Lexeme.isRegular (before rest : List Char) : Lexeme → Bool
  -- no escaped quote is taken for the end
  | .literal true cs => slip? (opensEscapes before) (cs.drop 1) = none
  -- no letter beyond ASCII joins an E to a longer word
  | .literal false _ => !opensEscapes before
  | .quotedName _ => true
  -- the dollar is not joined to a number or another body, and the tag is plain
  | .body tag _ => !followsName before && tag.all (·.toNat < 128)
  -- a carriage return ends a line only together with a line feed
  | .lineComment _ => rest.head? ≠ some '\r' || (rest.drop 1).head? = some '\n'
  -- comments do not nest
  | .blockComment cs => ¬ ['/', '*'] <:+: cs.drop 2
  -- no letter beyond ASCII stands before a dollar
  | .word cs => dollarsFollowNames [] cs
  | .number _ => true
  | .symbol _ => true

/-- Whether all lexemes are regular, between `before` and `rest`. -/
def areRegular (before : List Char) : List Lexeme → List Char → Bool
  | [], _ => true
  | lx :: lxs, rest =>
    lx.isRegular before (lxs.flatMap Lexeme.chars ++ rest) &&
      areRegular (lx.chars.reverse ++ before) lxs rest

/-! ### Bodies and comments -/

theorem readThrough_eq {mark cs : List Char} :
    Lexeme.readThrough mark cs = splitThrough mark cs := by
  induction cs with
  | nil => rfl
  | cons c cs ih =>
    rw [Lexeme.readThrough, splitThrough]
    by_cases h : mark <+: c :: cs
    · rw [if_pos h, if_pos (List.isPrefixOf_iff_prefix.2 h), ← List.prefix_iff_eq_take.1 h]
    · rw [if_neg h, if_neg fun h' => h (List.isPrefixOf_iff_prefix.1 h'), ih]

theorem isTagChar_ascii {c : Char} (h : Lexeme.isTagChar c = true) (hascii : c.toNat < 128) :
    (c.isAlphanum || c = '_') = true := by
  rw [Lexeme.isTagChar, Lexeme.isLetter] at h
  rw [Char.isAlphanum]
  have hlt : decide (128 ≤ c.toNat) = false := by simpa using hascii
  rw [hlt, Bool.or_false] at h
  rw [Bool.or_right_comm]
  exact h

/-- A plain tag is found by both. -/
theorem dollarTag?_eq_some {cs tag : List Char} (h : Lexeme.tag? cs = some tag)
    (hascii : tag.all (·.toNat < 128) = true) : dollarTag? cs = some tag := by
  obtain ⟨rest, rfl, htag, hdigit⟩ := Lexeme.tag?_eq_some h
  have hall : ∀ c ∈ tag, (c.isAlphanum || c = '_') = true := fun c hc =>
    isTagChar_ascii (htag c hc) (of_decide_eq_true (List.all_eq_true.1 hascii c hc))
  have htake : (tag ++ '$' :: rest).takeWhile (fun c => c.isAlphanum || c = '_') = tag := by
    rw [List.takeWhile_append_of_pos hall, List.takeWhile_cons_of_neg (by decide), List.append_nil]
  rw [dollarTag?, htake, List.drop_left, hdigit]
  rfl

/-- What the segments take for a tag is one. -/
theorem dollarTag?_eq_none {cs : List Char} (h : Lexeme.tag? cs = none) : dollarTag? cs = none := by
  cases htag : dollarTag? cs with
  | none => rfl
  | some tag =>
    have hchars := drop_of_dollarTag? htag
    unfold dollarTag? at htag
    simp only [Option.ite_none_right_eq_some, Bool.and_eq_true, Option.some.injEq] at htag
    -- the tag has letters and digits alone, in the sense of the segments, and each of them is a tag
    -- character
    obtain ⟨⟨-, hdigit⟩, hall⟩ := htag
    have hall : ∀ c ∈ tag, Lexeme.isTagChar c = true := by
      intro c hc
      rw [← hall] at hc
      have hc := List.all_eq_true.1 List.all_takeWhile c hc
      rw [Char.isAlphanum, Bool.or_right_comm] at hc
      rw [Lexeme.isTagChar, Lexeme.isLetter, Bool.or_assoc, Bool.or_comm (decide _),
        ← Bool.or_assoc, hc, Bool.true_or]
    -- so it is found by both
    rw [Lexeme.tag?, if_neg (by simpa using hdigit), ← hchars, List.dropWhile_append_of_pos hall,
      List.dropWhile_cons_of_neg (by decide), List.head?_cons, if_pos rfl] at h
    cases h

theorem isKept_body {before cs tag : List Char} (htag : Lexeme.tag? cs = some tag)
    (hbefore : followsName before = false) (hascii : tag.all (·.toNat < 128) = true) :
    IsKept before
      ('$' :: tag ++ '$' :: (Lexeme.readThrough ('$' :: tag ++ ['$']) (cs.drop (tag.length + 1))).1)
      (Lexeme.readThrough ('$' :: tag ++ ['$']) (cs.drop (tag.length + 1))).2 := by
  have hsplit : splitSegment before '$' cs =
      (.verbatim ('$' :: tag ++
        '$' :: (splitThrough ('$' :: tag ++ ['$']) (cs.drop (tag.length + 1))).1),
        (splitThrough ('$' :: tag ++ ['$']) (cs.drop (tag.length + 1))).2) := by
    rw [splitSegment, if_neg (by decide), if_pos rfl, hbefore, if_neg (by decide),
      dollarTag?_eq_some htag hascii]
  rw [readThrough_eq]
  exact isKept_of_splitSegment hsplit

/-- A comment in which none is opened ends with the first mark that ends one. -/
theorem readBlock_eq (cs : List Char) (h : ¬ ['/', '*'] <:+: (Lexeme.readBlock 0 cs).1) :
    Lexeme.readBlock 0 cs = splitThrough ['*', '/'] cs := by
  -- from the front, two characters at a time, as both marks have two
  match cs with
  | [] => rfl
  | [c] =>
    rw [splitThrough, if_neg (by simp)]
    rfl
  | c :: d :: cs =>
    rw [Lexeme.readBlock] at h ⊢
    rw [splitThrough]
    split
    · next hopen =>
      -- a comment would be opened
      rw [if_pos hopen] at h
      obtain ⟨hc, hd⟩ := Bool.and_eq_true_iff.1 hopen
      rw [of_decide_eq_true hc, of_decide_eq_true hd] at h
      exact absurd (List.prefix_append ['/', '*'] _).isInfix h
    · next hopen =>
      rw [if_neg hopen] at h
      split
      · next hclose =>
        obtain ⟨hc, hd⟩ := Bool.and_eq_true_iff.1 hclose
        rw [of_decide_eq_true hc, of_decide_eq_true hd]
        rfl
      · -- no mark stands here, so both go on by one character
        next hclose =>
        rw [if_neg hclose] at h
        have hprefix : ¬ ['*', '/'].isPrefixOf (c :: d :: cs) = true := by
          rw [List.isPrefixOf_iff_prefix, List.cons_prefix_cons, List.cons_prefix_cons]
          rintro ⟨rfl, rfl, -⟩
          exact hclose rfl
        have hrest : ¬ ['/', '*'] <:+: (Lexeme.readBlock 0 (d :: cs)).1 :=
          fun hin => h (hin.trans (List.suffix_cons c _).isInfix)
        rw [if_neg hprefix, readBlock_eq (d :: cs) hrest]

/-- A block comment is cut off through the first mark that ends one. -/
theorem splitSegment_blockComment (before cs : List Char) :
    splitSegment before '/' ('*' :: cs) =
      (.verbatim ('/' :: '*' :: (splitThrough ['*', '/'] cs).1),
        (splitThrough ['*', '/'] cs).2) := by
  rw [splitSegment, if_neg (by decide), if_neg (by decide), if_neg (by simp), if_pos (by simp)]
  rfl

theorem isKept_blockComment {before cs : List Char}
    (h : ¬ ['/', '*'] <:+: (Lexeme.readBlock 0 cs).1) :
    IsKept before ('/' :: '*' :: (Lexeme.readBlock 0 cs).1) (Lexeme.readBlock 0 cs).2 := by
  rw [readBlock_eq cs h]
  exact isKept_of_splitSegment (splitSegment_blockComment before cs)

/-- A line comment is cut off before the next line feed. -/
theorem splitSegment_lineComment {u : List Char} (before : List Char) (hu : ∀ c ∈ u, c ≠ '\n')
    (rest : List Char) :
    splitSegment before '-' ('-' :: u ++ rest) =
      (.verbatim ('-' :: '-' :: u ++ rest.takeWhile (· != '\n')),
        rest.dropWhile (· != '\n')) := by
  have hall : ∀ c ∈ '-' :: u, (c != '\n') = true := by
    intro c hc
    rcases List.mem_cons.1 hc with rfl | hc
    · rfl
    · simpa using hu c hc
  rw [splitSegment, if_neg (by decide), if_neg (by decide), if_pos (by simp),
    List.takeWhile_append_of_pos hall, List.dropWhile_append_of_pos hall]
  rfl

/-- A comment that a line feed or nothing follows is kept. -/
theorem isKept_lineComment {u rest : List Char} (before : List Char) (hu : ∀ c ∈ u, c ≠ '\n')
    (hrest : rest.head?.any (· ≠ '\n') = false) : IsKept before ('-' :: '-' :: u) rest := by
  have hnil : rest.takeWhile (· != '\n') = [] ∧ rest.dropWhile (· != '\n') = rest := by
    cases rest with
    | nil => exact ⟨rfl, rfl⟩
    | cons d rest =>
      have hd : d = '\n' := by simpa using hrest
      rw [hd]
      exact ⟨rfl, rfl⟩
  have hsplit := splitSegment_lineComment before hu rest
  rw [hnil.1, hnil.2, List.append_nil] at hsplit
  exact isKept_of_splitSegment hsplit

/-- What a line end other than a carriage return ends, a line feed ends. -/
theorem head?_dropWhile_lineEnd {cs : List Char}
    (h : (cs.dropWhile (!Lexeme.isLineEnd ·)).head? ≠ some '\r') :
    (cs.dropWhile (!Lexeme.isLineEnd ·)).head?.any (· ≠ '\n') = false := by
  have hnot := List.head?_dropWhile_not (!Lexeme.isLineEnd ·) cs
  cases he : (cs.dropWhile (!Lexeme.isLineEnd ·)).head? with
  | none => rfl
  | some e =>
    rw [he] at h hnot
    have hline : Lexeme.isLineEnd e = true := by simpa using hnot
    rw [Lexeme.isLineEnd, Bool.or_eq_true, decide_eq_true_eq, decide_eq_true_eq] at hline
    have hfeed : e = '\n' := hline.resolve_right fun hr => h (congrArg some hr)
    rw [hfeed]
    rfl

theorem ne_lineFeed_of_mem_takeWhile {c : Char} {cs : List Char}
    (h : c ∈ cs.takeWhile (!Lexeme.isLineEnd ·)) : c ≠ '\n' := by
  rintro rfl
  have hline := List.all_eq_true.1 List.all_takeWhile _ h
  cases hline

/-! ### Words, numbers and symbols -/

theorem isKept_single {before rest : List Char} {c : Char} (h : OpensNothing before c rest) :
    IsKept before [c] rest :=
  isKept_of_splitSegment (splitSegment_single h)

/-- A character of a word or a number, unless it is a dollar behind none. -/
theorem opensNothing_of_isWordChar {before rest : List Char} {c : Char}
    (hc : (Lexeme.isWordChar c || c = '.') = true) (hd : c = '$' → followsName before = true) :
    OpensNothing before c rest := by
  refine ⟨⟨?_, ?_⟩, fun h => Or.inl (hd h), ?_, ?_, ?_, ?_⟩
  all_goals
    rintro rfl
    exact absurd hc (by decide)

theorem dollarsFollowNames_append (before u v : List Char) :
    dollarsFollowNames before (u ++ v) =
      (dollarsFollowNames before u && dollarsFollowNames (u.reverse ++ before) v) := by
  induction u generalizing before with
  | nil => rfl
  | cons c u ih =>
    rw [List.cons_append, dollarsFollowNames, dollarsFollowNames, ih, List.reverse_cons,
      List.append_assoc, Bool.and_assoc]
    rfl

/-- What stands further in front does not matter. -/
theorem dollarsFollowNames_mono {u cs : List Char} (before : List Char)
    (h : dollarsFollowNames u cs = true) : dollarsFollowNames (u ++ before) cs = true := by
  induction cs generalizing u with
  | nil => rfl
  | cons c cs ih =>
    rw [dollarsFollowNames, Bool.and_eq_true] at h ⊢
    obtain ⟨hc, hcs⟩ := h
    refine ⟨?_, ih hcs⟩
    cases u with
    | nil =>
      have hne : decide (c ≠ '$') = true := by simpa [followsName] using hc
      rw [hne, Bool.true_or]
    | cons d u => exact hc

theorem dollarsFollowNames_of_ne {cs : List Char} (before : List Char) (h : ∀ c ∈ cs, c ≠ '$') :
    dollarsFollowNames before cs = true := by
  induction cs generalizing before with
  | nil => rfl
  | cons c cs ih =>
    have hc : decide (c ≠ '$') = true := decide_eq_true (h c List.mem_cons_self)
    rw [dollarsFollowNames, hc, ih _ fun d hd => h d (List.mem_cons_of_mem c hd)]
    rfl

/-- The characters of words and numbers are segments of their own. -/
theorem isKept_wordChars {cs : List Char} (before rest : List Char)
    (hcs : ∀ c ∈ cs, (Lexeme.isWordChar c || c = '.') = true)
    (hd : dollarsFollowNames before cs = true) : IsKept before cs rest := by
  induction cs generalizing before with
  | nil => exact .nil before rest
  | cons c cs ih =>
    rw [dollarsFollowNames, Bool.and_eq_true] at hd
    obtain ⟨hc, hd⟩ := hd
    have hfirst : IsKept before [c] (cs ++ rest) := by
      refine isKept_single (opensNothing_of_isWordChar (hcs c List.mem_cons_self) ?_)
      rintro rfl
      exact hc
    exact hfirst.append (ih (c :: before) (fun d hd => hcs d (List.mem_cons_of_mem c hd)) hd)

theorem isWordChar_of_mem_word {c : Char} (hc : Lexeme.isLetter c = true) (cs : List Char) :
    ∀ e ∈ c :: cs.takeWhile Lexeme.isWordChar, (Lexeme.isWordChar e || e = '.') = true := by
  intro e he
  have hword : Lexeme.isWordChar e = true := by
    rcases List.mem_cons.1 he with rfl | he
    · rw [Lexeme.isWordChar, Lexeme.isTagChar, hc, Bool.true_or, Bool.true_or]
    · exact List.all_eq_true.1 List.all_takeWhile e he
  rw [hword, Bool.true_or]

/-- A number is kept; it has no dollars. -/
theorem isKept_number {c : Char} {cs : List Char} (before : List Char) (hc : c.isDigit = true) :
    IsKept before (c :: cs.takeWhile Lexeme.isNumberChar) (cs.dropWhile Lexeme.isNumberChar) := by
  -- every character of a number may stand in a word, and none of them is a dollar
  have hnumber : ∀ e ∈ c :: cs.takeWhile Lexeme.isNumberChar, Lexeme.isNumberChar e = true := by
    intro e he
    rcases List.mem_cons.1 he with rfl | he
    · rw [Lexeme.isNumberChar, Lexeme.isTagChar, hc, Bool.or_true, Bool.true_or]
    · exact List.all_eq_true.1 List.all_takeWhile e he
  refine isKept_wordChars before _ ?_ (dollarsFollowNames_of_ne before ?_)
  · intro e he
    have hchar := hnumber e he
    rw [Lexeme.isNumberChar, Bool.or_eq_true] at hchar
    rw [Lexeme.isWordChar, Bool.or_eq_true, Bool.or_eq_true]
    exact hchar.imp Or.inl id
  · rintro e he rfl
    exact absurd (hnumber _ he) (by decide)

/-! ### Lexemes one by one -/

theorem Lexeme.read_marker (ctx : Context) (cs : List Char) :
    read ctx marker cs = (.symbol marker, cs) := by
  rw [read, if_neg (by decide), if_neg (by decide), if_neg (by decide),
    if_neg fun h => marker_ne_opener.1 (of_decide_eq_true (Bool.and_eq_true_iff.1 h).1),
    if_neg fun h => marker_ne_opener.2 (of_decide_eq_true (Bool.and_eq_true_iff.1 h).1),
    if_neg (by decide), if_neg (by decide)]

theorem Lexeme.read_carriageReturn (ctx : Context) (cs : List Char) :
    read ctx '\r' cs = (.symbol '\r', cs) := by
  rw [read, if_neg (by decide), if_neg (by decide), if_neg (by decide), if_neg (by simp),
    if_neg (by simp), if_neg (by decide), if_neg (by decide)]

theorem Lexeme.isLetter_of_isNameStart {c : Char} (h : isNameStart c = true) :
    isLetter c = true := by
  rw [isNameStart] at h
  rw [isLetter, h, Bool.true_or]

theorem Lexeme.read_word (ctx : Context) {c : Char} (h : isNameStart c = true) (cs : List Char) :
    read ctx c cs = (.word (c :: cs.takeWhile isWordChar), cs.dropWhile isWordChar) := by
  have hne : ∀ d : Char, isNameStart d = false → c ≠ d := by
    rintro d hd rfl
    rw [h] at hd
    cases hd
  rw [read, if_neg (hne _ (by decide)), if_neg (hne _ (by decide)), if_neg (hne _ (by decide)),
    if_neg (by simp [hne '-' (by decide)]), if_neg (by simp [hne '/' (by decide)]),
    if_pos (isLetter_of_isNameStart h)]

/-- A comment to the end of a line begins with two dashes and has no line end; one follows it, if
anything does. -/
theorem Lexeme.read_eq_lineComment {ctx : Context} {c : Char} {cs u rest : List Char}
    (h : read ctx c cs = (.lineComment u, rest)) :
    ∃ v, u = '-' :: '-' :: v ∧ (∀ d ∈ v, isLineEnd d = false) ∧
      ∀ d, rest.head? = some d → isLineEnd d = true := by
  -- by the kind of the first characters: of the ways to read, one gives this lexeme
  unfold read at h
  split at h
  · cases h
  split at h
  · cases h
  split at h
  · split at h <;> cases h
  split at h
  · next hc =>
    obtain ⟨rfl, cs, rfl⟩ := eq_of_opener hc
    cases h
    rw [List.takeWhile_cons_of_pos (by decide)]
    -- what follows does not begin with a character of the line
    refine ⟨_, rfl, fun d hd => ?_, fun d hd => ?_⟩
    · simpa using List.all_eq_true.1 List.all_takeWhile d hd
    · have hnot := List.head?_dropWhile_not (!isLineEnd ·) ('-' :: cs)
      rw [hd] at hnot
      simpa using hnot
  split at h
  · cases h
  split at h
  · cases h
  split at h <;> cases h

/-- A regular literal is read alike by the segments. -/
theorem readsAlike_of_isRegular {escapes : Bool} {before rest inner : List Char}
    (h : (Lexeme.literal escapes ('\x27' :: inner)).isRegular before rest = true) :
    ReadsAlike escapes (isAware before '\x27') inner := by
  cases escapes with
  | true =>
    change decide (slip? (isAware before '\x27') inner = none) = true at h
    have hslip := of_decide_eq_true h
    exact hslip
  | false =>
    change (!isAware before '\x27') = true at h
    rwa [Bool.not_eq_true'] at h

/-- A dollar that begins no tag is kept. -/
theorem isKept_dollar {cs : List Char} (before : List Char) (h : Lexeme.tag? cs = none) :
    IsKept before ['$'] cs := by
  refine isKept_single ⟨by decide, fun _ => Or.inr (dollarTag?_eq_none h), ?_, ?_, ?_, ?_⟩
  all_goals
    intro hc
    exact absurd hc (by decide)

/-- **A regular lexeme is kept,** but for a marker, which a name may follow, and for a comment whose
line a carriage return ends. -/
theorem isKept_of_isRegular {ctx : Lexeme.Context} {before cs rest : List Char} {c : Char}
    {lx : Lexeme} (hread : Lexeme.read ctx c cs = (lx, rest)) (h : lx.isRegular before rest = true)
    (hmarker : lx ≠ .symbol marker)
    (hreturn : ∀ u, lx = .lineComment u → rest.head? ≠ some '\r') :
    IsKept before lx.chars rest := by
  -- the cases are those of the lexer, by the first character; in each of them regularity is what
  -- the segment that begins there needs to end where the lexeme does
  unfold Lexeme.read at hread
  split at hread
  · -- a literal: it is regular if both sides read a backslash in it alike
    next hc =>
    obtain rfl := hc
    cases hread
    exact isKept_readQuoted (Or.inl rfl) (fun _ => rfl) before cs (readsAlike_of_isRegular h)
  split at hread
  · -- a name in quotes, in which nobody minds backslashes
    next hc =>
    obtain rfl := hc
    cases hread
    exact isKept_readQuoted (Or.inr rfl) (fun he => by cases he) before cs rfl
  split at hread
  · next hc =>
    obtain rfl := hc
    split at hread
    · -- a body between tags: the scanner takes it for one only if no name stands before it, and
      -- knows tags of ASCII letters alone
      next tag htag =>
      cases hread
      obtain ⟨hbefore, hascii⟩ := Bool.and_eq_true_iff.1 h
      rw [Bool.not_eq_true'] at hbefore
      exact isKept_body htag hbefore hascii
    · -- a dollar that opens nothing for the lexer opens nothing for the scanner either
      next htag =>
      cases hread
      exact isKept_dollar before htag
  split at hread
  · -- a comment to the end of the line: the lexer also ends it at a carriage return, which by
    -- assumption is not what ends this one
    next hc =>
    obtain ⟨rfl, cs, rfl⟩ := Lexeme.eq_of_opener hc
    cases hread
    rw [List.takeWhile_cons_of_pos (by decide), List.dropWhile_cons_of_pos (by decide)] at *
    exact isKept_lineComment before (fun e => ne_lineFeed_of_mem_takeWhile)
      (head?_dropWhile_lineEnd (hreturn _ rfl))
  split at hread
  · -- a comment in marks: the scanner does not count the marks inside, so it is regular if there
    -- are none
    next hc =>
    obtain ⟨rfl, cs, rfl⟩ := Lexeme.eq_of_opener hc
    cases hread
    exact isKept_blockComment (of_decide_eq_true h)
  split at hread
  · -- a word: its characters pass one by one, and a dollar among them must follow a name
    next hc =>
    cases hread
    exact isKept_wordChars before _ (isWordChar_of_mem_word hc cs)
      (dollarsFollowNames_mono before h)
  split at hread
  · -- a number, whose characters pass one by one as well
    next hc =>
    cases hread
    exact isKept_number before hc
  · -- any other character: that it is none of the openers is what the cases before leave over, and
    -- that it is no marker is assumed
    next hquote hdouble hdollar hline hblock _ _ =>
    cases hread
    refine isKept_single ⟨⟨hquote, hdouble⟩, fun hc => absurd hc hdollar, ?_, ?_, ?_, ?_⟩
    · intro hc hd
      exact hline (Bool.and_eq_true_iff.2 ⟨decide_eq_true hc, decide_eq_true hd⟩)
    · intro hc hd
      exact hblock (Bool.and_eq_true_iff.2 ⟨decide_eq_true hc, decide_eq_true hd⟩)
    · intro hc
      exact absurd (congrArg Lexeme.symbol hc) hmarker
    · intro hc
      exact absurd (congrArg Lexeme.symbol hc) hmarker

/-! ### In step -/

/-- Whether the characters of a lexeme are neither quoted nor a comment. References stand in such
lexemes alone. -/
def Lexeme.isCode (lx : Lexeme) : Bool :=
  !lx.isQuoted && !lx.isComment

/-- Taking the lexemes of some characters apart. -/
theorem lexemesAfter_eq_cons {ctx : Lexeme.Context} {cs : List Char} {lx : Lexeme}
    {lxs : List Lexeme} (h : lexemesAfter ctx cs = lx :: lxs) :
    ∃ c cs', cs = c :: cs' ∧ Lexeme.read ctx c cs' = (lx, lxs.flatMap Lexeme.chars) ∧
      lexemesAfter (ctx.after lx) (lxs.flatMap Lexeme.chars) = lxs := by
  -- no characters have no lexemes
  cases cs with
  | nil =>
    rw [lexemesAfter_nil] at h
    cases h
  | cons c cs =>
    rw [lexemesAfter_cons, List.cons.injEq] at h
    obtain ⟨rfl, hrest⟩ := h
    have hchars : (Lexeme.read ctx c cs).2 = lxs.flatMap Lexeme.chars := by
      rw [← hrest, lexemesAfter_chars]
    rw [hchars] at hrest
    exact ⟨c, cs, rfl, Prod.ext rfl hchars, hrest⟩

/-- A marker that neither a second nor a name follows is kept. -/
theorem isKept_marker {before cs : List Char} (hpair : cs.head? ≠ some marker)
    (href : cs.head?.any isNameStart = true → followsName before = true) :
    IsKept before [marker] cs := by
  refine isKept_single ⟨by decide, ?_, ?_, ?_, fun _ => hpair, fun _ => href⟩
  all_goals
    intro hc
    exact absurd hc (by decide)

theorem isWordChar_of_isNameChar {c : Char} (h : isNameChar c = true) :
    Lexeme.isWordChar c = true := by
  rw [isNameChar, Char.isAlphanum, Bool.or_right_comm c.isAlpha] at h
  rw [Lexeme.isWordChar, Lexeme.isTagChar, Lexeme.isLetter, Bool.or_right_comm _ _ c.isDigit]
  rw [Bool.or_eq_true] at h ⊢
  exact h.imp_left fun h => by rw [h, Bool.true_or]

/-- A reference ends in the word that follows the marker, and the rest of the word is kept. -/
theorem isCut_reference {before cs : List Char} {c : Char} (hstart : isNameStart c = true)
    (hbefore : followsName before = false)
    (hword : dollarsFollowNames [] (c :: cs.takeWhile Lexeme.isWordChar) = true) :
    IsCut before (marker :: c :: cs.takeWhile Lexeme.isWordChar)
      (cs.dropWhile Lexeme.isWordChar) := by
  -- the word is not empty, and what comes behind it continues no name
  have hchars := isWordChar_of_mem_word (Lexeme.isLetter_of_isNameStart hstart) cs
  have hrest : (cs.dropWhile Lexeme.isWordChar).head?.any isNameChar = false := by
    have hnot := head?_dropWhile_any Lexeme.isWordChar cs
    cases he : (cs.dropWhile Lexeme.isWordChar).head? with
    | none => rfl
    | some e =>
      rw [he] at hnot
      refine Bool.of_not_eq_true fun hname => ?_
      exact absurd (isWordChar_of_isNameChar hname) (by simpa using hnot)
  have hhead : ((c :: cs.takeWhile Lexeme.isWordChar) ++
      cs.dropWhile Lexeme.isWordChar).head?.any isNameStart = true := hstart
  generalize cs.dropWhile Lexeme.isWordChar = rest at *
  generalize c :: cs.takeWhile Lexeme.isWordChar = word at *
  -- the name is as much of the word as can stand in one
  have happend : word.takeWhile isNameChar ++ word.dropWhile isNameChar = word :=
    List.takeWhile_append_dropWhile
  have hname := List.all_eq_true.1 (List.all_takeWhile (p := isNameChar) (l := word))
  have hend := head?_dropWhile_any isNameChar word
  generalize word.takeWhile isNameChar = name at *
  generalize word.dropWhile isNameChar = tail at *
  -- the name ends in the word or with it, and either way no name character follows
  have hnext : (tail ++ rest).head?.any isNameChar = false := by
    cases tail with
    | nil => exact hrest
    | cons e tail => exact hend
  obtain ⟨htake, hdrop⟩ := takeWhile_isNameChar_append hname hnext
  rw [← List.append_assoc, happend] at htake hdrop
  have hsplit := splitSegment_reference hhead hbefore
  rw [htake, hdrop] at hsplit
  have hfirst : IsCut before (marker :: name) (tail ++ rest) := isCut_of_splitSegment hsplit
  have htail : dollarsFollowNames (name.reverse ++ ([marker] ++ before)) tail = true := by
    rw [← happend, dollarsFollowNames_append, Bool.and_eq_true, List.append_nil] at hword
    exact dollarsFollowNames_mono _ hword.2
  -- the rest of the word is kept, with the name in front of it
  have hkept : IsKept ((marker :: name).reverse ++ before) tail rest := by
    rw [List.reverse_cons, List.append_assoc]
    refine isKept_wordChars _ rest (fun e he => hchars e ?_) htail
    rw [← happend]
    exact List.mem_append_right name he
  rw [← happend]
  exact hfirst.append hkept.isCut

/-- What is plain code is not among the lexemes before which no plain code stands. -/
theorem eq_cons_of_isCode {lx : Lexeme} {tail lxs R : List Lexeme} (h : lxs ++ R = lx :: tail)
    (hlx : lx.isCode = true) (hcode : ∀ lx, R.head? = some lx → lx.isCode = false) :
    ∃ lxs', lxs = lx :: lxs' ∧ lxs' ++ R = tail := by
  cases lxs with
  | nil =>
    rw [List.nil_append] at h
    have hfalse := hcode lx (by rw [h]; rfl)
    rw [hlx] at hfalse
    cases hfalse
  | cons lx' lxs =>
    rw [List.cons_append, List.cons.injEq] at h
    exact ⟨lxs, by rw [h.1], h.2⟩

/-- **How a lexeme is cut:** it is kept by itself, or a segment takes it and some of the next, which
is plain code, and the cutting is in step again behind the next. -/
def IsKeptOrJoined (ctx : Lexeme.Context) (before : List Char) (lx : Lexeme) (rest : List Char) :
    Prop :=
  IsKept before lx.chars rest ∨
    ∃ lx' u, lx'.isCode = true ∧
      lexemesAfter (ctx.after lx) rest = lx' :: lexemesAfter ((ctx.after lx).after lx') u ∧
      (lx'.isRegular (lx.chars.reverse ++ before) u = true → IsCut before (lx.chars ++ lx'.chars) u)

/-- A marker goes together with a second one, or with the word that a name begins. -/
theorem isKeptOrJoined_marker (ctx : Lexeme.Context) (before rest : List Char) :
    IsKeptOrJoined ctx before (.symbol marker) rest := by
  -- what follows the marker decides: nothing, a second marker, or a word
  cases rest with
  | nil => exact Or.inl (isKept_marker (by simp) (by simp))
  | cons d ds =>
    by_cases hd : d = marker
    · obtain rfl := hd
      refine Or.inr ⟨.symbol marker, ds, rfl, ?_, fun _ => ?_⟩
      · rw [lexemesAfter_cons, Lexeme.read_marker]
      · exact isCut_of_splitSegment (splitSegment_pair before ds)
    by_cases hname : isNameStart d = true ∧ followsName before = false
    · refine Or.inr ⟨.word (d :: ds.takeWhile Lexeme.isWordChar), ds.dropWhile Lexeme.isWordChar,
        rfl, ?_, fun hword => ?_⟩
      · rw [lexemesAfter_cons, Lexeme.read_word _ hname.1]
      · exact isCut_reference hname.1 hname.2 hword
    · -- no name can begin here, so the marker stands for itself
      refine Or.inl (isKept_marker (fun h => hd (Option.some.inj h)) fun hstart => ?_)
      rw [Classical.not_and_iff_not_or_not] at hname
      exact Bool.of_not_eq_false (hname.resolve_left fun h => h hstart)

/-- A comment takes the carriage return that a line feed follows. -/
theorem isKeptOrJoined_carriageReturn (ctx : Lexeme.Context) {before rest v : List Char}
    (hv : ∀ d ∈ v, Lexeme.isLineEnd d = false) (hrest : rest.head? = some '\n') :
    IsKeptOrJoined ctx before (.lineComment ('-' :: '-' :: v)) ('\r' :: rest) := by
  refine Or.inr ⟨.symbol '\r', rest, rfl, ?_, fun _ => ?_⟩
  · rw [lexemesAfter_cons, Lexeme.read_carriageReturn]
  · have hline : ∀ e ∈ v ++ ['\r'], e ≠ '\n' := by
      intro e he
      rcases List.mem_append.1 he with he | he
      · rintro rfl
        exact absurd (hv _ he) (by decide)
      · rw [List.mem_singleton.1 he]
        decide
    exact (isKept_lineComment before hline (by rw [hrest]; rfl)).isCut

/-- A regular lexeme is kept, or joined with the one behind it: a marker with its pair or its word,
and a line comment with the carriage return that ends it for the lexer alone. -/
theorem isKeptOrJoined_of_isRegular {ctx : Lexeme.Context} {before cs rest : List Char} {c : Char}
    {lx : Lexeme} (hread : Lexeme.read ctx c cs = (lx, rest))
    (h : lx.isRegular before rest = true) : IsKeptOrJoined ctx before lx rest := by
  by_cases hmarker : lx = .symbol marker
  · rw [hmarker]
    exact isKeptOrJoined_marker ctx before rest
  -- of the other lexemes only a line comment before a carriage return is read on
  by_cases hreturn : ∀ u, lx = .lineComment u → rest.head? ≠ some '\r'
  · exact Or.inl (isKept_of_isRegular hread h hmarker hreturn)
  · rw [Classical.not_forall] at hreturn
    obtain ⟨u, hreturn⟩ := hreturn
    rw [Classical.not_imp, Classical.not_not] at hreturn
    obtain ⟨rfl, hhead⟩ := hreturn
    obtain ⟨v, rfl, hv, -⟩ := Lexeme.read_eq_lineComment hread
    obtain ⟨rest, rfl⟩ := List.head?_eq_some_iff.1 hhead
    exact isKeptOrJoined_carriageReturn ctx hv (by simpa [Lexeme.isRegular] using h)

/-- **Behind regular lexemes segments and lexemes are in step,** if no plain code follows. -/
theorem isCut_of_areRegular {ctx : Lexeme.Context} {before cs : List Char} {lxs R : List Lexeme}
    (hlex : lexemesAfter ctx cs = lxs ++ R)
    (hreg : areRegular before lxs (R.flatMap Lexeme.chars) = true)
    (hcode : ∀ lx, R.head? = some lx → lx.isCode = false) :
    IsCut before (lxs.flatMap Lexeme.chars) (R.flatMap Lexeme.chars) := by
  match lxs with
  | [] => exact (IsKept.nil before _).isCut
  | lx :: lxs =>
    rw [List.cons_append] at hlex
    obtain ⟨c, cs', rfl, hread, hlex⟩ := lexemesAfter_eq_cons hlex
    rw [areRegular, Bool.and_eq_true] at hreg
    obtain ⟨hlx, hreg⟩ := hreg
    rw [List.flatMap_append] at hread hlex
    -- the first lexeme alone, or together with the next one
    rcases isKeptOrJoined_of_isRegular hread hlx with hkept | ⟨lx', u, hlx', hnext, hcut⟩
    · rw [List.flatMap_cons]
      exact hkept.isCut.append (isCut_of_areRegular hlex hreg hcode)
    · -- the next lexeme is one of those in front, since it is plain code
      rw [hlex] at hnext
      obtain ⟨lxs', hlxs, htail⟩ := eq_cons_of_isCode hnext hlx' hcode
      have hu : u = lxs'.flatMap Lexeme.chars ++ R.flatMap Lexeme.chars := by
        rw [← lexemesAfter_chars ((ctx.after lx).after lx') u, ← htail, List.flatMap_append]
      rw [hlxs, areRegular, Bool.and_eq_true, ← hu] at hreg
      have hfirst := hcut hreg.1
      have hrest := isCut_of_areRegular htail.symm hreg.2 hcode
      rw [hu] at hfirst
      rw [← List.append_assoc, ← List.reverse_append] at hrest
      rw [hlxs, List.flatMap_cons, List.flatMap_cons, ← List.append_assoc]
      exact hfirst.append hrest
termination_by lxs.length

end QueryGateway.Sql
