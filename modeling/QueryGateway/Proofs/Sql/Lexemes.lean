import QueryGateway.Sql.Marker

/-!
# Lexemes

How the server cuts a text into lexemes, as far as it matters for what is quoted. This is what the
cutting into segments is measured against, and it shares nothing with it.

* A literal goes from quote to quote, and a doubled quote does not end it. In a literal behind a
  lone letter E a backslash takes the next character along, in all of the literal; and if nothing
  but white space and line comments with a line end among them separates such a literal from another
  quote, that quote opens more of the same (`Context`).
* A name in double quotes goes from quote to quote in the same way, without backslashes.
* A body goes from `$tag$` to the next `$tag$`. A dollar inside a word or directly behind it belongs
  to the word and opens nothing; a number has no dollars.
* A comment goes from two dashes to the end of the line, or from `/*` to the `*/` that closes it
  after all that were opened within it are closed.

Letters beyond ASCII are letters, in words and in tags. What is never closed runs to the end of the
text. A number takes letters along, which the server refuses where it does.

Literals are read as by default: without the letter E a backslash is a character like any other.
-/

namespace QueryGateway.Sql

namespace Lexeme

/-! ### Characters -/

/-- Whether a word or a tag may begin with the character. -/
def isLetter (c : Char) : Bool :=
  c.isAlpha || c = '_' || 128 ≤ c.toNat

/-- Whether the character may stand in a tag. -/
def isTagChar (c : Char) : Bool :=
  isLetter c || c.isDigit

/-- Whether the character may stand in a word. -/
def isWordChar (c : Char) : Bool :=
  isTagChar c || c = '$'

/-- Whether the character may stand in a number. -/
def isNumberChar (c : Char) : Bool :=
  isTagChar c || c = '.'

/-- Whether the character ends a line. -/
def isLineEnd (c : Char) : Bool :=
  c = '\n' || c = '\r'

/-- Whether the character is white space. -/
def isSpace (c : Char) : Bool :=
  isLineEnd c || c = ' ' || c = '\t' || c = '\x0b' || c = '\x0c'

end Lexeme

/-! ### Lexemes -/

/-- **A lexeme,** with all its characters, so that the lexemes of a text put together are the
text. -/
inductive Lexeme where
  /-- A literal, from its opening quote, in which a backslash may escape the next character. -/
  | literal (escapes : Bool) (cs : List Char)
  /-- A name in double quotes. -/
  | quotedName (cs : List Char)
  /-- What stands between two occurrences of a tag in dollars, which are included. -/
  | body (tag cs : List Char)
  | lineComment (cs : List Char)
  | blockComment (cs : List Char)
  | word (cs : List Char)
  | number (cs : List Char)
  /-- Any other character. -/
  | symbol (c : Char)
deriving DecidableEq

namespace Lexeme

/-- The characters of a lexeme. -/
def chars : Lexeme → List Char
  | .literal _ cs => cs
  | .quotedName cs => cs
  | .body _ cs => cs
  | .lineComment cs => cs
  | .blockComment cs => cs
  | .word cs => cs
  | .number cs => cs
  | .symbol c => [c]

/-- Whether the characters of a lexeme are quoted: of a literal, a name in quotes or a body. -/
def isQuoted : Lexeme → Bool
  | .literal _ _ => true
  | .quotedName _ => true
  | .body _ _ => true
  | _ => false

/-- Whether a lexeme is a comment. -/
def isComment : Lexeme → Bool
  | .lineComment _ => true
  | .blockComment _ => true
  | _ => false

/-! ### Reading to the end -/

/-- Through the quote that ends what is quoted, and what follows it. A doubled quote does not end
it, nor one that is escaped. -/
def readQuoted (quote : Char) (escapes : Bool) : List Char → List Char × List Char
  | [] => ([], [])
  | [c] => ([c], [])
  | c :: d :: cs =>
    if (escapes && c = '\\') || (c = quote && d = quote) then
      let (inner, rest) := readQuoted quote escapes cs
      (c :: d :: inner, rest)
    else if c = quote then ([c], d :: cs)
    else
      let (inner, rest) := readQuoted quote escapes (d :: cs)
      (c :: inner, rest)

/-- Through the next occurrence of a mark, and what follows it; through all characters if there is
none. -/
def readThrough (mark : List Char) : List Char → List Char × List Char
  | [] => ([], [])
  | c :: cs =>
    if mark <+: c :: cs then ((c :: cs).take mark.length, (c :: cs).drop mark.length)
    else
      let (inner, rest) := readThrough mark cs
      (c :: inner, rest)

/-- Through the end of a comment within which so many are open, and what follows it. -/
def readBlock : Nat → List Char → List Char × List Char
  | _, [] => ([], [])
  | _, [c] => ([c], [])
  | n, c :: d :: cs =>
    if c = '/' && d = '*' then
      let (inner, rest) := readBlock (n + 1) cs
      (c :: d :: inner, rest)
    else if c = '*' && d = '/' then
      match n with
      | 0 => ([c, d], cs)
      | n + 1 =>
        let (inner, rest) := readBlock n cs
        (c :: d :: inner, rest)
    else
      let (inner, rest) := readBlock n (d :: cs)
      (c :: inner, rest)

/-- The tag that a dollar opens with the characters behind it, if they go on to another dollar. -/
def tag? (cs : List Char) : Option (List Char) :=
  if cs.head?.any Char.isDigit then none
  else if (cs.dropWhile isTagChar).head? = some '$' then some (cs.takeWhile isTagChar)
  else none

/-! ### What a lexeme depends on -/

/-- **What the lexemes so far say about a quote that comes next.** A literal may go on after a line
end, and then it escapes if the part before it did. -/
inductive Context where
  /-- It opens a literal without escapes. -/
  | plain
  /-- A lone letter E stands directly before it. -/
  | prefixed
  /-- A literal with escapes was closed, with nothing but white space and line comments since, and
  perhaps a line end among them. -/
  | closed (broken : Bool)
deriving DecidableEq

/-- Whether a backslash escapes in a literal that a quote opens here. -/
def Context.escapes : Context → Bool
  | .plain => false
  | .prefixed => true
  | .closed broken => broken

/-- The context behind a lexeme. -/
def Context.after (ctx : Context) : Lexeme → Context
  | .word ['E'] => .prefixed
  | .word ['e'] => .prefixed
  | .literal true _ => .closed false
  | .lineComment _ =>
    match ctx with
    | .closed broken => .closed broken
    | _ => .plain
  | .symbol c =>
    match ctx with
    | .closed broken => if isSpace c then .closed (broken || isLineEnd c) else .plain
    | _ => .plain
  | _ => .plain

/-- **The first lexeme** of the characters `c :: cs`, and what follows it. Quotes are looked for
first, then dollars and comments, then words and numbers; what is none of these is a symbol. -/
def read (ctx : Context) (c : Char) (cs : List Char) : Lexeme × List Char :=
  if c = '\x27' then
    let (inner, rest) := readQuoted c ctx.escapes cs
    (.literal ctx.escapes (c :: inner), rest)
  else if c = '"' then
    let (inner, rest) := readQuoted c false cs
    (.quotedName (c :: inner), rest)
  else if c = '$' then
    match tag? cs with
    | some tag =>
      let (inner, rest) := readThrough (c :: tag ++ ['$']) (cs.drop (tag.length + 1))
      (.body tag (c :: tag ++ '$' :: inner), rest)
    | none => (.symbol c, cs)
  else if c = '-' && cs.head? = some '-' then
    (.lineComment (c :: cs.takeWhile (!isLineEnd ·)), cs.dropWhile (!isLineEnd ·))
  else if c = '/' && cs.head? = some '*' then
    let (inner, rest) := readBlock 0 (cs.drop 1)
    (.blockComment (c :: '*' :: inner), rest)
  else if isLetter c then (.word (c :: cs.takeWhile isWordChar), cs.dropWhile isWordChar)
  else if c.isDigit then (.number (c :: cs.takeWhile isNumberChar), cs.dropWhile isNumberChar)
  else (.symbol c, cs)

theorem readQuoted_append (quote : Char) (escapes : Bool) (cs : List Char) :
    (readQuoted quote escapes cs).1 ++ (readQuoted quote escapes cs).2 = cs := by
  fun_induction readQuoted quote escapes cs <;> simp_all

theorem readThrough_append (mark cs : List Char) :
    (readThrough mark cs).1 ++ (readThrough mark cs).2 = cs := by
  fun_induction readThrough mark cs <;> simp_all

theorem readBlock_append (n : Nat) (cs : List Char) :
    (readBlock n cs).1 ++ (readBlock n cs).2 = cs := by
  fun_induction readBlock n cs <;> simp_all

/-- What is found as a tag stands in front of a dollar, has characters of tags alone, and does not
begin with a digit. -/
theorem tag?_eq_some {cs tag : List Char} (h : tag? cs = some tag) :
    ∃ rest, cs = tag ++ '$' :: rest ∧ (∀ c ∈ tag, isTagChar c = true) ∧
      cs.head?.any Char.isDigit = false := by
  unfold tag? at h
  split at h
  · cases h
  · -- a digit in front would make it the number of a parameter
    next hdigit =>
    split at h
    · next hdollar =>
      obtain rfl := Option.some.inj h
      obtain ⟨rest, hrest⟩ := List.head?_eq_some_iff.1 hdollar
      refine ⟨rest, ?_, List.all_eq_true.1 List.all_takeWhile, Bool.of_not_eq_true hdigit⟩
      rw [← hrest, List.takeWhile_append_dropWhile]
    · cases h

/-- Taking apart the test for two characters that begin a comment. -/
theorem eq_of_opener {c x y : Char} {cs : List Char} (h : (c = x && cs.head? = some y) = true) :
    c = x ∧ ∃ cs', cs = y :: cs' := by
  obtain ⟨hc, hd⟩ := Bool.and_eq_true_iff.1 h
  exact ⟨of_decide_eq_true hc, List.head?_eq_some_iff.1 (of_decide_eq_true hd)⟩

/-- No character is lost. -/
theorem read_chars (ctx : Context) (c : Char) (cs : List Char) :
    (read ctx c cs).1.chars ++ (read ctx c cs).2 = c :: cs := by
  -- each way to read keeps what it passes over: the lexeme and the rest are the text cut in two
  unfold read
  split
  · simp [chars, readQuoted_append]
  split
  · simp [chars, readQuoted_append]
  split
  · split
    · -- the body of the dollars is cut at its mark, behind its tag
      next tag htag =>
      obtain ⟨rest, rfl, -, -⟩ := tag?_eq_some htag
      have hdrop : (tag ++ '$' :: rest).drop (tag.length + 1) = rest := by
        rw [← List.drop_drop, List.drop_left]
        rfl
      simp [chars, hdrop, readThrough_append]
    · rfl
  split
  · simp [chars]
  split
  · next h =>
    obtain ⟨-, rest, rfl⟩ := eq_of_opener h
    simp [chars, readBlock_append]
  split
  · simp [chars]
  split
  · simp [chars]
  · rfl

theorem read_length_le (ctx : Context) (c : Char) (cs : List Char) :
    (read ctx c cs).2.length ≤ cs.length := by
  have h := congrArg List.length (read_chars ctx c cs)
  -- every lexeme takes at least the character `c`
  have hpos : 1 ≤ (read ctx c cs).1.chars.length := by
    unfold read
    repeat' split
    all_goals simp [chars]
  simp only [List.length_append, List.length_cons] at h
  omega

end Lexeme

/-! ### The lexemes of a text -/

/-- The lexemes of characters in a context. -/
def lexemesAfter (ctx : Lexeme.Context) : List Char → List Lexeme
  | [] => []
  | c :: cs =>
    let next := Lexeme.read ctx c cs
    next.1 :: lexemesAfter (ctx.after next.1) next.2
termination_by cs => cs.length
decreasing_by
  have := Lexeme.read_length_le ctx c cs
  simp only [List.length_cons]
  omega

/-- **The lexemes of a text,** read from its start with nothing before it. -/
def lexemes (cs : List Char) : List Lexeme :=
  lexemesAfter .plain cs

theorem lexemesAfter_nil (ctx : Lexeme.Context) : lexemesAfter ctx [] = [] := by
  rw [lexemesAfter]

theorem lexemesAfter_cons (ctx : Lexeme.Context) (c : Char) (cs : List Char) :
    lexemesAfter ctx (c :: cs) = (Lexeme.read ctx c cs).1 ::
      lexemesAfter (ctx.after (Lexeme.read ctx c cs).1) (Lexeme.read ctx c cs).2 := by
  rw [lexemesAfter]

/-- The lexemes make up the text. -/
theorem lexemesAfter_chars (ctx : Lexeme.Context) (cs : List Char) :
    (lexemesAfter ctx cs).flatMap Lexeme.chars = cs := by
  induction ctx, cs using lexemesAfter.induct with
  | case1 ctx => rw [lexemesAfter_nil, List.flatMap_nil]
  | case2 ctx c cs next ih =>
    rw [lexemesAfter_cons, List.flatMap_cons, ih, Lexeme.read_chars]

end QueryGateway.Sql
