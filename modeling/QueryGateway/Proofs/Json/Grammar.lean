import QueryGateway.Json.Syntax
import QueryGateway.Proofs.Text.Digits

/-!
# The grammar of JSON

What a JSON text is, apart from any way of reading one: `Writes` says which characters are a way to
write which part of a tree. A value may be written in many ways, with blanks between its parts,
escapes in its strings and signs in its exponents, and a text is a way to write one value
(`IsText`).

Reading a text gives the tree that it writes (`parse?_of_isText`). Each reader takes what the
grammar allows in front of a rest: a number goes on as long as it can, so a rest must not go on with
it (`IsEnd`), and everything else has an end of its own.
-/

namespace QueryGateway.Json

open Text

/-! ### Blanks -/

/-- The characters that may stand between the parts of a text. -/
def IsSpace (c : Char) : Prop :=
  c = ' ' ∨ c = '\n' ∨ c = '\t' ∨ c = '\r'

def AreSpaces (cs : List Char) : Prop :=
  ∀ c ∈ cs, IsSpace c

theorem areSpaces_nil : AreSpaces [] :=
  fun _ hc => nomatch hc

/-- A rest with no blank in front. -/
def IsUnspaced (cs : List Char) : Prop :=
  ∀ c, cs.head? = some c → ¬ IsSpace c

theorem skipSpaces_of_isUnspaced {cs : List Char} (h : IsUnspaced cs) : skipSpaces cs = cs := by
  cases cs with
  | nil => rfl
  | cons c cs =>
    have hc : ¬ IsSpace c := h c rfl
    simp only [IsSpace, not_or] at hc
    simp [skipSpaces, hc]

/-- **Blanks in front are skipped.** -/
theorem skipSpaces_append {before : List Char} (h : AreSpaces before) (cs : List Char) :
    skipSpaces (before ++ cs) = skipSpaces cs := by
  induction before with
  | nil => rfl
  | cons c before ih =>
    have hc : IsSpace c := h c List.mem_cons_self
    rw [← ih fun b hb => h b (List.mem_cons_of_mem c hb)]
    obtain rfl | rfl | rfl | rfl := hc <;> rfl

theorem isUnspaced_skipSpaces (cs : List Char) : IsUnspaced (skipSpaces cs) := by
  intro c hc hspace
  unfold skipSpaces at hc
  have := List.head?_dropWhile_not (fun c => c = ' ' || c = '\n' || c = '\t' || c = '\r') cs
  rw [hc] at this
  simp only [Bool.or_eq_false_iff, decide_eq_false_iff_not] at this
  obtain rfl | rfl | rfl | rfl := hspace <;> simp at this

/-! ### Numbers -/

/-- The digits of a whole number: zero alone begins with a zero, so that no number is written in two
ways by zeros in front. -/
structure IsWhole (ds : List Char) : Prop extends IsDigits ds where
  no_leadingZero : ds.head? = some '0' → ds = ['0']

/-- A fraction, if there is one: a point with at least one digit behind it. -/
inductive IsFraction : Option (List Char) → List Char → Prop where
  | absent : IsFraction none []
  | present (ds : List Char) (h : IsDigits ds) : IsFraction (some ds) ('.' :: ds)

/-- An exponent, if there is one, behind a mark of either case, with or without a sign. -/
inductive IsExponent : Option Int → List Char → Prop where
  | absent : IsExponent none []
  | plain (mark : Char) (ds : List Char) (hmark : mark = 'e' ∨ mark = 'E') (h : IsDigits ds) :
    IsExponent (some (valueOfDigits ds)) (mark :: ds)
  | plus (mark : Char) (ds : List Char) (hmark : mark = 'e' ∨ mark = 'E') (h : IsDigits ds) :
    IsExponent (some (valueOfDigits ds)) (mark :: '+' :: ds)
  | minus (mark : Char) (ds : List Char) (hmark : mark = 'e' ∨ mark = 'E') (h : IsDigits ds) :
    IsExponent (some (-(valueOfDigits ds : Int))) (mark :: '-' :: ds)

/-- **A number without its sign:** the digits before the point, then a fraction, then an exponent,
where only the first must be there. -/
structure IsUnsigned (n : Numeral) (cs : List Char) : Prop where
  isWhole : IsWhole n.whole
  parts : ∃ fraction exponent, IsFraction n.fraction fraction ∧ IsExponent n.exponent exponent ∧
    cs = n.whole ++ (fraction ++ exponent)

/-- A rest that no number goes on with. It is what makes the end of a number clear, as numbers have
no mark at their end. -/
structure IsEnd (rest : List Char) : Prop where
  not_digit : ∀ c, rest.head? = some c → c.isDigit = false
  not_mark : ∀ c, rest.head? = some c → c ≠ '.' ∧ c ≠ 'e' ∧ c ≠ 'E'

/-- **Digits are read** up to the first character that is none, so a rest with a digit in front
would be read along with them. -/
theorem takeDigits?_append {ds rest : List Char} (h : IsDigits ds)
    (hrest : ∀ c, rest.head? = some c → c.isDigit = false) :
    takeDigits? (ds ++ rest) = some (ds, rest) := by
  -- the digits are a run of their own because the rest does not go on with one
  have htake : (ds ++ rest).takeWhile Char.isDigit = ds := by
    rw [List.takeWhile_append_of_pos h.isDigit]
    cases rest with
    | nil => rw [List.takeWhile_nil, List.append_nil]
    | cons c rest => rw [List.takeWhile_cons_of_neg (by simp [hrest c rfl]), List.append_nil]
  have hempty : ds.isEmpty = false := List.isEmpty_eq_false_iff.2 h.ne_nil
  simp only [takeDigits?, htake, hempty, Bool.false_eq_true, if_false, List.drop_left]

theorem takeWhole?_append {ds rest : List Char} (h : IsWhole ds)
    (hrest : ∀ c, rest.head? = some c → c.isDigit = false) :
    takeWhole? (ds ++ rest) = some (ds, rest) := by
  have hzero : ¬ (ds.head? = some '0' ∧ ds.length ≠ 1) := by
    rintro ⟨hhead, hlength⟩
    rw [h.no_leadingZero hhead] at hlength
    exact hlength rfl
  rw [takeWhole?, takeDigits?_append h.toIsDigits hrest]
  simpa using hzero

/-- The fraction of a number, which may be missing. The rest begins neither with a digit, which
would belong to it, nor with a point, which would begin it. -/
theorem takeFraction?_append {fraction : Option (List Char)} {cs rest : List Char}
    (h : IsFraction fraction cs) (hrest : ∀ c, rest.head? = some c → c.isDigit = false)
    (hpoint : ∀ c, rest.head? = some c → c ≠ '.') :
    takeFraction? (cs ++ rest) = some (fraction, rest) := by
  cases h with
  | absent =>
    rw [List.nil_append]
    unfold takeFraction?
    split
    -- nothing is written, and a point in the rest would be the only way to read something
    next cs' => exact absurd rfl (hpoint '.' rfl)
    · rfl
  | present ds h =>
    rw [List.cons_append, takeFraction?, takeDigits?_append h hrest]
    rfl

/-- The digits of an exponent without a sign. -/
theorem takePower?_digits {ds rest : List Char} (h : IsDigits ds)
    (hrest : ∀ c, rest.head? = some c → c.isDigit = false) :
    takePower? (ds ++ rest) = some ((valueOfDigits ds : Int), rest) := by
  -- a digit is none of the signs
  obtain ⟨c, cs, rfl⟩ := List.exists_cons_of_ne_nil h.ne_nil
  have hc := h.isDigit c List.mem_cons_self
  unfold takePower?
  split
  next hcons =>
    obtain rfl := (List.cons.inj hcons).1
    cases hc
  next hcons =>
    obtain rfl := (List.cons.inj hcons).1
    cases hc
  · rw [takeDigits?_append h hrest]
    rfl

/-- The exponent of a number, which may be missing. All ways to write one begin with a mark, and the
rest has none in front. -/
theorem takeExponent?_append {exponent : Option Int} {cs rest : List Char}
    (h : IsExponent exponent cs) (hrest : IsEnd rest) :
    takeExponent? (cs ++ rest) = some (exponent, rest) := by
  -- the marks lead to the same reader
  have hmarked : ∀ {mark : Char} {more : List Char} {n : Int}, mark = 'e' ∨ mark = 'E' →
      takePower? (more ++ rest) = some (n, rest) →
      takeExponent? (mark :: more ++ rest) = some (some n, rest) := by
    rintro mark more n (rfl | rfl) hpower <;> rw [List.cons_append, takeExponent?, hpower] <;> rfl
  cases h with
  | absent =>
    rw [List.nil_append]
    unfold takeExponent?
    split
    -- nothing is written, and the rest begins with neither mark
    next cs' => exact absurd rfl (hrest.not_mark 'e' rfl).2.1
    next cs' => exact absurd rfl (hrest.not_mark 'E' rfl).2.2
    · rfl
  | plain mark ds hmark h => exact hmarked hmark (takePower?_digits h hrest.not_digit)
  | plus mark ds hmark h =>
    refine hmarked hmark ?_
    rw [List.cons_append, takePower?, takeDigits?_append h hrest.not_digit]
    rfl
  | minus mark ds hmark h =>
    refine hmarked hmark ?_
    rw [List.cons_append, takePower?, takeDigits?_append h hrest.not_digit]
    rfl

/-- **A number is read** up to what it does not go on with. -/
theorem takeNumeral?_append {n : Numeral} {cs rest : List Char} (h : IsUnsigned n cs)
    (hrest : IsEnd rest) : takeNumeral? n.isNegative (cs ++ rest) = some (n, rest) := by
  obtain ⟨isNegative, whole, written?, power?⟩ := n
  obtain ⟨hwhole, fraction, exponent, hfraction, hexponent, rfl⟩ := h
  dsimp only at hwhole hfraction hexponent ⊢
  -- neither mark is a digit, so each part ends where the next begins
  have hend : ∀ c, (exponent ++ rest).head? = some c → c.isDigit = false ∧ c ≠ '.' := by
    intro c hc
    cases hexponent with
    | absent => exact ⟨hrest.not_digit c hc, (hrest.not_mark c hc).1⟩
    | plain mark ds hmark h =>
      obtain rfl := Option.some.inj hc
      obtain rfl | rfl := hmark <;> decide
    | plus mark ds hmark h =>
      obtain rfl := Option.some.inj hc
      obtain rfl | rfl := hmark <;> decide
    | minus mark ds hmark h =>
      obtain rfl := Option.some.inj hc
      obtain rfl | rfl := hmark <;> decide
  -- the fraction begins with its point, which is no digit
  have hend' : ∀ c, (fraction ++ (exponent ++ rest)).head? = some c → c.isDigit = false := by
    intro c hc
    cases hfraction with
    | absent => exact (hend c hc).1
    | present ds h =>
      obtain rfl := Option.some.inj hc
      rfl
  -- each reader now finds its part and the rest that its lemma asks for
  rw [List.append_assoc, List.append_assoc, takeNumeral?, takeWhole?_append hwhole hend']
  dsimp only [Option.bind_eq_bind, Option.bind_some]
  rw [takeFraction?_append hfraction (fun c hc => (hend c hc).1) fun c hc => (hend c hc).2]
  dsimp only [Option.bind_some]
  rw [takeExponent?_append hexponent hrest]
  rfl

/-! ### Strings -/

/-- **The units of a string** between its quotes. Each is a character that needs no escape, an
escape of one letter, or a code of four hexadecimal digits. -/
inductive IsUnits : List Char → List CodeUnit → Prop where
  | nil : IsUnits [] []
  | char (c : Char) {cs : List Char} {units : List CodeUnit}
      (hc : c ≠ '"' ∧ c ≠ '\\' ∧ 0x20 ≤ c.toNat) (h : IsUnits cs units) :
    IsUnits (c :: cs) (.char c :: units)
  | escape (c e : Char) {cs : List Char} {units : List CodeUnit} (hc : simpleEscape? c = some e)
      (h : IsUnits cs units) : IsUnits ('\\' :: c :: cs) (.char e :: units)
  | code (a b c d : Char) (n : Nat) {cs : List Char} {units : List CodeUnit}
      (hn : hexNatural? [a, b, c, d] = some n) (h : IsUnits cs units) :
    IsUnits ('\\' :: 'u' :: a :: b :: c :: d :: cs) (.code n :: units)

/-- The text that units spell, if they do. -/
def textOf? (units : List CodeUnit) : Option String :=
  (charsOfUnits? units).map String.ofList

/-- **The code units of a string** up to the quote. Every unit is written in one of three ways, and
none of them begins with a quote, so the quote that comes first is the one that ends the string. -/
theorem takeUnits?_append {cs : List Char} {units : List CodeUnit} (h : IsUnits cs units)
    (rest : List Char) : takeUnits? (cs ++ '"' :: rest) = some (units, rest) := by
  induction h with
  | nil => rw [List.nil_append, takeUnits?]
  | char c hc h ih =>
    obtain ⟨hquote, hslash, hcontrol⟩ := hc
    rw [List.cons_append, takeUnits?.eq_def]
    split
    -- no other equation of the reader fits a character that is neither a quote nor a backslash
    next heq => cases heq
    next heq => exact absurd (List.cons.inj heq).1 hquote
    next heq => exact absurd (List.cons.inj heq).1 hslash
    next heq => exact absurd (List.cons.inj heq).1 hslash
    next heq =>
      obtain ⟨rfl, rfl⟩ := List.cons.inj heq
      rw [ih]
      simp [hslash, hcontrol]
  | escape c e hc h ih =>
    rw [List.cons_append, List.cons_append, takeUnits?.eq_def]
    split
    -- the backslash leaves the two equations for escapes, told apart by the letter `u`
    next heq => cases heq
    next heq => cases heq
    next heq =>
      -- the escape of a code unit is none of these
      obtain ⟨-, heq⟩ := List.cons.inj heq
      obtain ⟨rfl, -⟩ := List.cons.inj heq
      cases hc
    next heq =>
      obtain ⟨-, heq⟩ := List.cons.inj heq
      obtain ⟨rfl, rfl⟩ := List.cons.inj heq
      rw [hc, ih]
    next hnot heq =>
      obtain ⟨rfl, rfl⟩ := List.cons.inj heq
      exact (hnot _ _ rfl rfl).elim
  | code a b c d n hn h ih =>
    simp only [List.cons_append]
    rw [takeUnits?, hn, ih]

theorem takeString?_append {cs : List Char} {units : List CodeUnit} (h : IsUnits cs units)
    (rest : List Char) : takeString? (cs ++ '"' :: rest) = some (textOf? units, rest) := by
  rw [takeString?, takeUnits?_append h]
  rfl

/-! ### Values -/

/-- The parts of a tree that are written as wholes. Lists of items and members are parts of their
own, so that one induction covers values and what they consist of. -/
inductive Part where
  | value (t : Tree)
  /-- A value among blanks. -/
  | item (t : Tree)
  /-- What stands between the brackets of an array that is not empty. -/
  | items (ts : List Tree)
  | member (m : Option String × Tree)
  /-- What stands between the braces of an object that is not empty. -/
  | members (ms : List (Option String × Tree))

/-- **The grammar of JSON:** the ways to write a part. It is stated apart from the reader, with
blanks only where the standard has them, between parts and never inside one. -/
inductive Writes : List Char → Part → Prop where
  | null : Writes ['n', 'u', 'l', 'l'] (.value .null)
  | true : Writes ['t', 'r', 'u', 'e'] (.value (.bool true))
  | false : Writes ['f', 'a', 'l', 's', 'e'] (.value (.bool false))
  | positive {n : Numeral} {cs : List Char} (hsign : n.isNegative = Bool.false)
      (h : IsUnsigned n cs) : Writes cs (.value (.number n))
  | negative {n : Numeral} {cs : List Char} (hsign : n.isNegative = Bool.true)
      (h : IsUnsigned n cs) : Writes ('-' :: cs) (.value (.number n))
  | string {cs : List Char} {units : List CodeUnit} (h : IsUnits cs units) :
    Writes ('"' :: (cs ++ ['"'])) (.value (.string (textOf? units)))
  | emptyArray {spaces : List Char} (h : AreSpaces spaces) :
    Writes ('[' :: (spaces ++ [']'])) (.value (.array []))
  | array {cs : List Char} {ts : List Tree} (h : Writes cs (.items ts)) :
    Writes ('[' :: (cs ++ [']'])) (.value (.array ts))
  | emptyObject {spaces : List Char} (h : AreSpaces spaces) :
    Writes ('\x7b' :: (spaces ++ ['\x7d'])) (.value (.object []))
  | object {cs : List Char} {ms : List (Option String × Tree)} (h : Writes cs (.members ms)) :
    Writes ('\x7b' :: (cs ++ ['\x7d'])) (.value (.object ms))
  | item {before cs after : List Char} {t : Tree} (hbefore : AreSpaces before)
      (h : Writes cs (.value t)) (hafter : AreSpaces after) :
    Writes (before ++ (cs ++ after)) (.item t)
  | lastItem {cs : List Char} {t : Tree} (h : Writes cs (.item t)) : Writes cs (.items [t])
  | moreItems {cs more : List Char} {t : Tree} {ts : List Tree} (h : Writes cs (.item t))
      (hmore : Writes more (.items ts)) : Writes (cs ++ ',' :: more) (.items (t :: ts))
  | member {before name after cs : List Char} {units : List CodeUnit} {t : Tree}
      (hbefore : AreSpaces before) (hname : IsUnits name units) (hafter : AreSpaces after)
      (h : Writes cs (.item t)) :
    Writes (before ++ '"' :: (name ++ '"' :: (after ++ ':' :: cs))) (.member (textOf? units, t))
  | lastMember {cs : List Char} {m : Option String × Tree} (h : Writes cs (.member m)) :
    Writes cs (.members [m])
  | moreMembers {cs more : List Char} {m : Option String × Tree}
      {ms : List (Option String × Tree)} (h : Writes cs (.member m))
      (hmore : Writes more (.members ms)) : Writes (cs ++ ',' :: more) (.members (m :: ms))

/-- **A JSON text,** which writes a tree among blanks. Any value may stand at the top, not only an
object or an array. -/
def IsText (s : String) (t : Tree) : Prop :=
  Writes s.toList (.item t)

/-! ### Reading values -/

/-- The characters that may follow a value: blanks, and what ends an item or a member. -/
def IsDelimiter (c : Char) : Prop :=
  c = ',' ∨ c = ']' ∨ c = '\x7d'

/-- What comes behind an item or a member. -/
def IsDelimited (rest : List Char) : Prop :=
  ∀ c, rest.head? = some c → IsDelimiter c

theorem IsDelimited.isUnspaced {rest : List Char} (h : IsDelimited rest) : IsUnspaced rest := by
  intro c hc hspace
  obtain rfl | rfl | rfl := h c hc <;> simp [IsSpace] at hspace

/-- What may follow a value among blanks is blanks and then a delimiter, and neither goes on with a
number. -/
theorem isEnd_append {after rest : List Char} (hafter : AreSpaces after)
    (hrest : IsDelimited rest) : IsEnd (after ++ rest) := by
  -- it is the first character behind the value that counts, whether it is a blank or the rest's own
  have hhead : ∀ c, (after ++ rest).head? = some c → IsSpace c ∨ IsDelimiter c := by
    intro c hc
    cases after with
    | nil => exact .inr (hrest c hc)
    | cons a after =>
      obtain rfl := Option.some.inj hc
      exact .inl (hafter _ List.mem_cons_self)
  -- so it is one of seven characters, and none of them is a digit or a mark
  constructor
  · intro c hc
    obtain (rfl | rfl | rfl | rfl) | (rfl | rfl | rfl) := hhead c hc <;> rfl
  · intro c hc
    obtain (rfl | rfl | rfl | rfl) | (rfl | rfl | rfl) := hhead c hc <;> decide

/-- **How the readers take a part** in front of a rest, as long as the bound on the depth of their
calls is not below twice the length of what is written. -/
def Part.IsTaken : Part → List Char → Prop
  | .value t, cs => ∀ n rest, 2 * cs.length ≤ n → IsEnd rest →
      takeValue? n (cs ++ rest) = some (t, rest)
  | .item t, cs => ∀ n rest, 2 * cs.length ≤ n → IsDelimited rest →
      ∃ left, takeValue? n (cs ++ rest) = some (t, left) ∧ skipSpaces left = rest
  | .items ts, cs => ∀ n rest, 2 * cs.length + 1 ≤ n →
      takeItems? n (cs ++ ']' :: rest) = some (ts, rest)
  | .member m, cs => ∀ n rest, 2 * cs.length ≤ n → IsDelimited rest →
      ∃ string colon value left, skipSpaces (cs ++ rest) = '"' :: string ∧
        takeString? string = some (m.1, colon) ∧ skipSpaces colon = ':' :: value ∧
        takeValue? n value = some (m.2, left) ∧ skipSpaces left = rest
  | .members ms, cs => ∀ n rest, 2 * cs.length + 1 ≤ n →
      takeMembers? n (cs ++ '\x7d' :: rest) = some (ms, rest)

theorem takeValue?_skipSpaces (n : Nat) (cs : List Char) :
    takeValue? n (skipSpaces cs) = takeValue? n cs := by
  cases n with
  | zero => rw [takeValue?_zero, takeValue?_zero]
  | succ n => rw [takeValue?, takeValue?, skipSpaces_of_isUnspaced (isUnspaced_skipSpaces cs)]

theorem takeItems?_skipSpaces (n : Nat) (cs : List Char) :
    takeItems? n (skipSpaces cs) = takeItems? n cs := by
  cases n with
  | zero => rw [takeItems?_zero, takeItems?_zero]
  | succ n => rw [takeItems?, takeItems?, takeValue?_skipSpaces]

theorem takeMembers?_skipSpaces (n : Nat) (cs : List Char) :
    takeMembers? n (skipSpaces cs) = takeMembers? n cs := by
  cases n with
  | zero => rw [takeMembers?_zero, takeMembers?_zero]
  | succ n => rw [takeMembers?, takeMembers?, skipSpaces_of_isUnspaced (isUnspaced_skipSpaces cs)]

/-- A part in front of a rest begins with a character that is no blank and ends nothing. -/
def Begins (cs : List Char) : Prop :=
  ∃ c more, (∀ rest, skipSpaces (cs ++ rest) = c :: (more ++ rest)) ∧ ¬ IsDelimiter c

theorem begins_cons {c : Char} (hspace : ¬ IsSpace c) (hdelimiter : ¬ IsDelimiter c)
    (cs : List Char) : Begins (c :: cs) := by
  refine ⟨c, cs, fun rest => skipSpaces_of_isUnspaced ?_, hdelimiter⟩
  intro c' hc'
  obtain rfl := Option.some.inj hc'
  exact hspace

theorem Begins.append_left {before cs : List Char} (hbefore : AreSpaces before) (h : Begins cs) :
    Begins (before ++ cs) := by
  obtain ⟨c, more, hskip, hc⟩ := h
  exact ⟨c, more, fun rest => by rw [List.append_assoc, skipSpaces_append hbefore, hskip], hc⟩

theorem Begins.append_right {cs : List Char} (h : Begins cs) (after : List Char) :
    Begins (cs ++ after) := by
  obtain ⟨c, more, hskip, hc⟩ := h
  exact ⟨c, more ++ after, fun rest => by rw [List.append_assoc, hskip, List.append_assoc], hc⟩

theorem not_isSpace_of_isDigit {c : Char} (h : c.isDigit = true) :
    ¬ IsSpace c ∧ ¬ IsDelimiter c := by
  constructor
  · rintro (rfl | rfl | rfl | rfl) <;> cases h
  · rintro (rfl | rfl | rfl) <;> cases h

/-- **Every part begins with a character of its own,** which is neither a blank nor a delimiter. It
is what keeps arrays and objects that are not empty from being read as empty. -/
theorem Writes.begins {cs : List Char} {p : Part} (h : Writes cs p) : Begins cs := by
  induction h with
  | null => exact begins_cons (by simp [IsSpace]) (by simp [IsDelimiter]) _
  | true => exact begins_cons (by simp [IsSpace]) (by simp [IsDelimiter]) _
  | false => exact begins_cons (by simp [IsSpace]) (by simp [IsDelimiter]) _
  | positive hsign h =>
    -- a numeral without a sign begins with a digit
    obtain ⟨hwhole, fraction, exponent, -, -, rfl⟩ := h
    obtain ⟨c, ds, hds⟩ := List.exists_cons_of_ne_nil hwhole.ne_nil
    have hc := not_isSpace_of_isDigit
      (hwhole.isDigit c (by rw [hds]; exact List.mem_cons_self))
    rw [hds]
    exact begins_cons hc.1 hc.2 _
  | negative hsign h => exact begins_cons (by simp [IsSpace]) (by simp [IsDelimiter]) _
  | string h => exact begins_cons (by simp [IsSpace]) (by simp [IsDelimiter]) _
  | emptyArray h => exact begins_cons (by simp [IsSpace]) (by simp [IsDelimiter]) _
  | array h ih => exact begins_cons (by simp [IsSpace]) (by simp [IsDelimiter]) _
  | emptyObject h => exact begins_cons (by simp [IsSpace]) (by simp [IsDelimiter]) _
  | object h ih => exact begins_cons (by simp [IsSpace]) (by simp [IsDelimiter]) _
  -- blanks in front are skipped, and what comes behind does not change how a part begins
  | item hbefore h hafter ih => exact (ih.append_right _).append_left hbefore
  | lastItem h ih => exact ih
  | moreItems h hmore ih ihmore => exact ih.append_right _
  | member hbefore hname hafter h ih =>
    exact (begins_cons (by simp [IsSpace]) (by simp [IsDelimiter]) _).append_left hbefore
  | lastMember h ih => exact ih
  | moreMembers h hmore ih ihmore => exact ih.append_right _

/-! ### Reading parts -/

section

variable (n : Nat) (cs : List Char)

theorem takeValue?_string : takeValue? (n + 1) ('"' :: cs) =
    (takeString? cs).map fun (s, rest) => (.string s, rest) := by
  rw [takeValue?]
  rfl

theorem takeValue?_negative : takeValue? (n + 1) ('-' :: cs) =
    (takeNumeral? true cs).map fun (x, rest) => (.number x, rest) := by
  rw [takeValue?]
  rfl

theorem takeValue?_digit {c : Char} (hc : c.isDigit = true) : takeValue? (n + 1) (c :: cs) =
    (takeNumeral? false (c :: cs)).map fun (x, rest) => (.number x, rest) := by
  have hskip : skipSpaces (c :: cs) = c :: cs := by
    -- there is no blank in front of a digit to skip
    refine skipSpaces_of_isUnspaced fun c' hc' => ?_
    obtain rfl := Option.some.inj hc'
    exact (not_isSpace_of_isDigit hc).1
  rw [takeValue?, hskip]
  -- no other value begins with a digit
  split
  case h_8 => rfl
  all_goals
    rename_i heq
    obtain rfl := (List.cons.inj heq).1
    cases hc

theorem takeValue?_emptyArray {rest : List Char} (h : skipSpaces cs = ']' :: rest) :
    takeValue? (n + 1) ('[' :: cs) = some (.array [], rest) := by
  have hopen : skipSpaces ('[' :: cs) = '[' :: cs := rfl
  simp [takeValue?, hopen, h]

theorem takeValue?_array {inner : List Char} (h : skipSpaces cs = inner)
    (hend : inner.head? ≠ some ']') : takeValue? (n + 1) ('[' :: cs) =
      (takeItems? n inner).map fun (items, rest) => (.array items, rest) := by
  have hopen : skipSpaces ('[' :: cs) = '[' :: cs := rfl
  simp only [takeValue?, hopen, h]
  split
  · exact absurd rfl hend
  · rfl

theorem takeValue?_emptyObject {rest : List Char} (h : skipSpaces cs = '\x7d' :: rest) :
    takeValue? (n + 1) ('\x7b' :: cs) = some (.object [], rest) := by
  have hopen : skipSpaces ('\x7b' :: cs) = '\x7b' :: cs := rfl
  simp [takeValue?, hopen, h]

theorem takeValue?_object {inner : List Char} (h : skipSpaces cs = inner)
    (hend : inner.head? ≠ some '\x7d') : takeValue? (n + 1) ('\x7b' :: cs) =
      (takeMembers? n inner).map fun (members, rest) => (.object members, rest) := by
  have hopen : skipSpaces ('\x7b' :: cs) = '\x7b' :: cs := rfl
  simp only [takeValue?, hopen, h]
  split
  · exact absurd rfl hend
  · rfl

end

theorem Begins.head?_ne {cs : List Char} (h : Begins cs) (rest : List Char) {c : Char}
    (hc : IsDelimiter c) : (skipSpaces (cs ++ rest)).head? ≠ some c := by
  obtain ⟨first, more, hskip, hfirst⟩ := h
  rw [hskip]
  rintro heq
  obtain rfl := Option.some.inj heq
  exact hfirst hc

theorem isDelimited_cons {c : Char} (h : IsDelimiter c) (rest : List Char) :
    IsDelimited (c :: rest) := by
  intro c' hc'
  obtain rfl := Option.some.inj hc'
  exact h

/-- The bound on the depth of the calls leaves one call, and a bound for what is called: a bracket
or a quote is written around what the call reads, so its length is less. -/
theorem exists_eq_succ {n k : Nat} (h : 2 * (k + 1) ≤ n) : ∃ m, n = m + 1 ∧ 2 * k + 1 ≤ m :=
  ⟨n - 1, by omega, by omega⟩

/-- The readers of items and of members call again at the same length, and have one call more. -/
theorem exists_eq_succ_of_odd {n k : Nat} (h : 2 * k + 1 ≤ n) : ∃ m, n = m + 1 ∧ 2 * k ≤ m :=
  ⟨n - 1, by omega, by omega⟩

/-! ### Each part is taken

One lemma for each way of writing a part, which says that the part is taken if the parts in it are.
The bound on the depth is what they have in common: a part that has others in it is longer than
they are. -/

section

variable {cs more : List Char}

theorem isTaken_positive {x : Numeral} (hsign : x.isNegative = false) (h : IsUnsigned x cs) :
    (Part.value (.number x)).IsTaken cs := by
  intro n rest hn hrest
  have hread := takeNumeral?_append h hrest
  obtain ⟨hwhole, fraction, exponent, -, -, rfl⟩ := h
  -- a numeral without a sign is told from other values by its first digit
  obtain ⟨c, ds, hds⟩ := List.exists_cons_of_ne_nil hwhole.ne_nil
  have hc := hwhole.isDigit c (by rw [hds]; exact List.mem_cons_self)
  rw [hds, List.cons_append] at hn
  obtain ⟨n, rfl, -⟩ := exists_eq_succ hn
  rw [hsign, hds, List.cons_append, List.cons_append] at hread
  rw [hds, List.cons_append, List.cons_append, takeValue?_digit n _ hc, hread]
  rfl

theorem isTaken_negative {x : Numeral} (hsign : x.isNegative = true) (h : IsUnsigned x cs) :
    (Part.value (.number x)).IsTaken ('-' :: cs) := by
  intro n rest hn hrest
  obtain ⟨n, rfl, -⟩ := exists_eq_succ hn
  rw [List.cons_append, takeValue?_negative, ← hsign, takeNumeral?_append h hrest]
  rfl

theorem isTaken_string {units : List CodeUnit} (h : IsUnits cs units) :
    (Part.value (.string (textOf? units))).IsTaken ('"' :: (cs ++ ['"'])) := by
  intro n rest hn hrest
  obtain ⟨n, rfl, -⟩ := exists_eq_succ hn
  -- the quote ends the string, so nothing is asked of the rest
  rw [List.cons_append, takeValue?_string, List.append_assoc, List.singleton_append,
    takeString?_append h]
  rfl

theorem isTaken_emptyArray (h : AreSpaces cs) :
    (Part.value (.array [])).IsTaken ('[' :: (cs ++ [']'])) := by
  intro n rest hn hrest
  obtain ⟨n, rfl, -⟩ := exists_eq_succ hn
  have hskip : skipSpaces (cs ++ ']' :: rest) = ']' :: rest := skipSpaces_append h _
  rw [List.cons_append, List.append_assoc, List.singleton_append, takeValue?_emptyArray n _ hskip]

/-- Items do not begin with the closing bracket, so the array is not taken for an empty one. -/
theorem isTaken_array {ts : List Tree} (hbegins : Begins cs) (h : (Part.items ts).IsTaken cs) :
    (Part.value (.array ts)).IsTaken ('[' :: (cs ++ [']'])) := by
  intro n rest hn hrest
  obtain ⟨n, rfl, hbound⟩ := exists_eq_succ hn
  rw [List.length_append, List.length_singleton] at hbound
  rw [List.cons_append, List.append_assoc, List.singleton_append,
    takeValue?_array n _ rfl (hbegins.head?_ne _ (.inr (.inl rfl))), takeItems?_skipSpaces,
    h n rest (by omega)]
  rfl

theorem isTaken_emptyObject (h : AreSpaces cs) :
    (Part.value (.object [])).IsTaken ('\x7b' :: (cs ++ ['\x7d'])) := by
  intro n rest hn hrest
  obtain ⟨n, rfl, -⟩ := exists_eq_succ hn
  have hskip : skipSpaces (cs ++ '\x7d' :: rest) = '\x7d' :: rest := skipSpaces_append h _
  rw [List.cons_append, List.append_assoc, List.singleton_append,
    takeValue?_emptyObject n _ hskip]

/-- Members do not begin with the closing brace, so the object is not taken for an empty one. -/
theorem isTaken_object {ms : List (Option String × Tree)} (hbegins : Begins cs)
    (h : (Part.members ms).IsTaken cs) :
    (Part.value (.object ms)).IsTaken ('\x7b' :: (cs ++ ['\x7d'])) := by
  intro n rest hn hrest
  obtain ⟨n, rfl, hbound⟩ := exists_eq_succ hn
  rw [List.length_append, List.length_singleton] at hbound
  rw [List.cons_append, List.append_assoc, List.singleton_append,
    takeValue?_object n _ rfl (hbegins.head?_ne _ (.inr (.inr rfl))), takeMembers?_skipSpaces,
    h n rest (by omega)]
  rfl

/-- **A value among blanks.** The reader of the value leaves the blanks behind it, and the one that
called it skips them. -/
theorem isTaken_item {before after : List Char} {t : Tree} (hbefore : AreSpaces before)
    (h : (Part.value t).IsTaken cs) (hafter : AreSpaces after) :
    (Part.item t).IsTaken (before ++ (cs ++ after)) := by
  intro n rest hn hrest
  simp only [List.length_append] at hn
  refine ⟨after ++ rest, ?_, ?_⟩
  · rw [← takeValue?_skipSpaces, List.append_assoc, skipSpaces_append hbefore,
      takeValue?_skipSpaces, List.append_assoc]
    -- blanks end a number as well as a delimiter does
    exact h n _ (by omega) (isEnd_append hafter hrest)
  · rw [skipSpaces_append hafter, skipSpaces_of_isUnspaced hrest.isUnspaced]

theorem isTaken_lastItem {t : Tree} (h : (Part.item t).IsTaken cs) :
    (Part.items [t]).IsTaken cs := by
  intro n rest hn
  obtain ⟨n, rfl, hbound⟩ := exists_eq_succ_of_odd hn
  obtain ⟨left, hleft, hskip⟩ := h n (']' :: rest) hbound (isDelimited_cons (.inr (.inl rfl)) rest)
  rw [takeItems?, hleft]
  dsimp only
  rw [hskip]
  rfl

theorem isTaken_moreItems {t : Tree} {ts : List Tree} (h : (Part.item t).IsTaken cs)
    (hmore : (Part.items ts).IsTaken more) :
    (Part.items (t :: ts)).IsTaken (cs ++ ',' :: more) := by
  intro n rest hn
  rw [List.length_append, List.length_cons] at hn
  obtain ⟨n, rfl, hbound⟩ := exists_eq_succ_of_odd hn
  rw [List.append_assoc, List.cons_append]
  -- the comma ends the first item, and those behind it are shorter by the comma at least
  obtain ⟨left, hleft, hskip⟩ :=
    h n (',' :: (more ++ ']' :: rest)) (by omega) (isDelimited_cons (.inl rfl) _)
  simp [takeItems?, hleft, hskip, hmore n rest (by omega)]

/-- **A member** is a name in quotes, a colon and an item. The reader goes through it in four calls,
with blanks skipped before the quote and before the colon. -/
theorem isTaken_member {before name after : List Char} {units : List CodeUnit} {t : Tree}
    (hbefore : AreSpaces before) (hname : IsUnits name units) (hafter : AreSpaces after)
    (h : (Part.item t).IsTaken cs) : (Part.member (textOf? units, t)).IsTaken
      (before ++ '"' :: (name ++ '"' :: (after ++ ':' :: cs))) := by
  intro n rest hn hrest
  simp only [List.length_append, List.length_cons] at hn
  obtain ⟨left, hleft, hskip⟩ := h n rest (by omega) hrest
  -- what is left after each of the calls
  refine ⟨name ++ '"' :: (after ++ ':' :: (cs ++ rest)), after ++ ':' :: (cs ++ rest), cs ++ rest,
    left, ?_, takeString?_append hname _, ?_, hleft, hskip⟩
  · simp only [List.append_assoc, List.cons_append]
    rw [skipSpaces_append hbefore]
    rfl
  · rw [skipSpaces_append hafter]
    rfl

theorem isTaken_lastMember {m : Option String × Tree} (h : (Part.member m).IsTaken cs) :
    (Part.members [m]).IsTaken cs := by
  intro n rest hn
  obtain ⟨n, rfl, hbound⟩ := exists_eq_succ_of_odd hn
  obtain ⟨string, colon, value, left, hquote, hstring, hcolon, hvalue, hskip⟩ :=
    h n ('\x7d' :: rest) hbound (isDelimited_cons (.inr (.inr rfl)) rest)
  simp [takeMembers?, hquote, hstring, hcolon, hvalue, hskip]

/-- The comma ends the first member as it ends an item. -/
theorem isTaken_moreMembers {m : Option String × Tree} {ms : List (Option String × Tree)}
    (h : (Part.member m).IsTaken cs) (hmore : (Part.members ms).IsTaken more) :
    (Part.members (m :: ms)).IsTaken (cs ++ ',' :: more) := by
  intro n rest hn
  rw [List.length_append, List.length_cons] at hn
  obtain ⟨n, rfl, hbound⟩ := exists_eq_succ_of_odd hn
  rw [List.append_assoc, List.cons_append]
  obtain ⟨string, colon, value, left, hquote, hstring, hcolon, hvalue, hskip⟩ :=
    h n (',' :: (more ++ '\x7d' :: rest)) (by omega) (isDelimited_cons (.inl rfl) _)
  simp [takeMembers?, hquote, hstring, hcolon, hvalue, hskip, hmore n rest (by omega)]

/-- The words of JSON are taken by their characters. -/
theorem isTaken_null : (Part.value .null).IsTaken ['n', 'u', 'l', 'l'] := by
  intro n rest hn hrest
  obtain ⟨n, rfl, -⟩ := exists_eq_succ hn
  rw [takeValue?]
  rfl

theorem isTaken_true : (Part.value (.bool true)).IsTaken ['t', 'r', 'u', 'e'] := by
  intro n rest hn hrest
  obtain ⟨n, rfl, -⟩ := exists_eq_succ hn
  rw [takeValue?]
  rfl

theorem isTaken_false : (Part.value (.bool false)).IsTaken ['f', 'a', 'l', 's', 'e'] := by
  intro n rest hn hrest
  obtain ⟨n, rfl, -⟩ := exists_eq_succ hn
  rw [takeValue?]
  rfl

end

/-- **Every part is read** in front of a rest. The induction is on the way in which it is written,
and each case is the lemma of that way. -/
theorem Writes.isTaken {cs : List Char} {p : Part} (h : Writes cs p) : p.IsTaken cs := by
  induction h with
  | null => exact isTaken_null
  | true => exact isTaken_true
  | false => exact isTaken_false
  | positive hsign h => exact isTaken_positive hsign h
  | negative hsign h => exact isTaken_negative hsign h
  | string h => exact isTaken_string h
  | emptyArray h => exact isTaken_emptyArray h
  | array h ih => exact isTaken_array h.begins ih
  | emptyObject h => exact isTaken_emptyObject h
  | object h ih => exact isTaken_object h.begins ih
  | item hbefore h hafter ih => exact isTaken_item hbefore ih hafter
  | lastItem h ih => exact isTaken_lastItem ih
  | moreItems h hmore ih ihmore => exact isTaken_moreItems ih ihmore
  | member hbefore hname hafter h ih => exact isTaken_member hbefore hname hafter ih
  | lastMember h ih => exact isTaken_lastMember ih
  | moreMembers h hmore ih ihmore => exact isTaken_moreMembers ih ihmore

/-- **A JSON text is read as the tree that it writes.** -/
theorem parse?_of_isText {s : String} {t : Tree} (h : IsText s t) : parse? s = some t := by
  obtain ⟨left, hleft, hskip⟩ := Writes.isTaken h (2 * s.toList.length + 2) [] (by omega)
    (fun _ hc => nomatch hc)
  rw [List.append_nil] at hleft
  simp [parse?, hleft, hskip]

/-- A text writes one tree at most. -/
theorem IsText.unique {s : String} {t t' : Tree} (h : IsText s t) (h' : IsText s t') : t = t' :=
  Option.some.inj ((parse?_of_isText h).symm.trans (parse?_of_isText h'))

end QueryGateway.Json
