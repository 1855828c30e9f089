import QueryGateway.Proofs.Sql.References
import QueryGateway.Proofs.Sql.Scanner

/-!
# Spans by positions

A span that begins at a position is the first segment of the characters behind that position, and no
access on the way fails (`spanAt_eq`). A text is written `before ++ rest` and looked at from the
position `before.length`, so that each access is a fact about lists: one character back is the last
of `before`, one ahead the second of `rest`.

The loops that look for an end are followed along the recursion of the function that cuts the
segment. They start behind the character that opens the span, so there always is a last character
for a literal that is not closed.
-/

namespace QueryGateway.Sql

theorem ok_bind {α β : Type} (a : α) (f : α → Except Fault β) : (Except.ok a >>= f) = f a := rfl

theorem pure_eq_ok {α : Type} (a : α) : (pure a : Except Fault α) = .ok a := rfl

/-! ### Accesses -/

theorem charAt_append (before : List Char) (c : Char) (rest : List Char) :
    charAt (before ++ c :: rest) before.length = .ok c := by
  rw [charAt, List.getElem?_append_right (Nat.le_refl _), Nat.sub_self, List.getElem?_cons_zero]

theorem getElem?_append_succ (before : List Char) (c : Char) (rest : List Char) :
    (before ++ c :: rest)[before.length + 1]? = rest.head? := by
  rw [List.getElem?_append_right (Nat.le_add_right _ _), Nat.add_sub_cancel_left,
    List.getElem?_cons_succ, List.head?_eq_getElem?]

theorem between_append (before middle rest : List Char) :
    between (before ++ (middle ++ rest)) before.length (before.length + middle.length) =
      .ok middle := by
  have hrange : before.length ≤ before.length + middle.length ∧
      before.length + middle.length ≤ (before ++ (middle ++ rest)).length := by
    rw [List.length_append, List.length_append]
    omega
  rw [between, if_pos hrange, List.take_length_add_append, List.drop_left, List.take_left]

/-- The characters from a position to the end. -/
theorem between_rest (before rest : List Char) :
    between (before ++ rest) before.length (before ++ rest).length = .ok rest := by
  have h := between_append before rest []
  rwa [List.append_nil, ← List.length_append] at h

theorem followsNameAt_append (before rest : List Char) :
    followsNameAt (before ++ rest) before.length = .ok (followsName before.reverse) := by
  rcases List.eq_nil_or_concat' before with rfl | ⟨front, b, rfl⟩
  · rfl
  · have hpos : 0 < (front ++ [b]).length := by simp
    have hlast : (front ++ [b]).length - 1 = front.length := by simp
    have hchar : charAt (front ++ [b] ++ rest) front.length = .ok b := by
      rw [List.append_assoc]
      exact charAt_append front b rest
    rw [followsNameAt, if_pos hpos, hlast, hchar, List.reverse_append]
    rfl

theorem opensEscapesAt_append (before rest : List Char) :
    opensEscapesAt (before ++ rest) before.length = .ok (opensEscapes before.reverse) := by
  rcases List.eq_nil_or_concat' before with rfl | ⟨front, b, rfl⟩
  · rfl
  · have hpos : 0 < (front ++ [b]).length := by simp
    have hlast : (front ++ [b]).length - 1 = front.length := by simp
    rw [opensEscapesAt, if_pos hpos, hlast, List.append_assoc, List.singleton_append,
      charAt_append, ok_bind, followsNameAt_append, ok_bind, List.reverse_append,
      List.reverse_singleton, List.singleton_append, opensEscapes]
    by_cases hletter : (decide (b = 'E') || decide (b = 'e')) = true
    · rw [if_pos hletter, hletter, Bool.true_and, pure_eq_ok]
    · rw [if_neg hletter, Bool.of_not_eq_true hletter, Bool.false_and, pure_eq_ok]

/-! ### Loops -/

theorem charAt_append_succ (before : List Char) (b c : Char) (rest : List Char) :
    charAt (before ++ b :: c :: rest) (before.length + 1) = .ok c := by
  have h := charAt_append (before ++ [b]) c rest
  rwa [List.append_assoc, List.singleton_append, List.length_append, List.length_singleton] at h

/-- Behind the last character there is no closing quote. -/
theorem closingQuote_end (before : List Char) (b quote : Char) (escapes : Bool) {j : Nat}
    (h : before.length < j) :
    closingQuote (before ++ [b]) quote escapes j = .ok before.length := by
  have hlength : (before ++ [b]).length = before.length + 1 := List.length_append
  rw [closingQuote, if_neg (by omega), lastPosition, if_neg (by omega), hlength,
    Nat.add_sub_cancel]

/-- **The closing quote** is the last character that is cut off. The characters are followed as they
are cut: what has been passed moves to those before. -/
theorem closingQuote_append (quote : Char) (escapes : Bool) (before : List Char) (b : Char)
    (cs : List Char) :
    closingQuote (before ++ b :: cs) quote escapes (before.length + 1) =
      .ok (before.length + (splitQuoted quote escapes cs).1.length) := by
  fun_induction splitQuoted quote escapes cs generalizing before b with
  | case1 => exact closingQuote_end before b quote escapes (Nat.lt_add_one _)
  | case2 c =>
    -- whatever the last character is, it ends the span
    have hshort : ∀ k, closingQuote (before ++ [b, c]) quote escapes (before.length + 1 + (k + 1)) =
        .ok (before.length + 1) := by
      intro k
      have h := closingQuote_end (before ++ [b]) c quote escapes
        (j := before.length + 1 + (k + 1)) (by simp)
      simpa using h
    rw [closingQuote, if_pos (by simp), charAt_append_succ, ok_bind, hshort 0, hshort 1]
    simp only [pure_eq_ok, ite_self, List.length_singleton]
  -- an escaped character is passed together with its backslash
  | case3 c d cs hescape inner rest heq ih =>
    rw [closingQuote, if_pos (by simp), charAt_append_succ, ok_bind, if_pos hescape]
    calc closingQuote (before ++ b :: c :: d :: cs) quote escapes (before.length + 1 + 2)
        = closingQuote (before ++ [b, c] ++ d :: cs) quote escapes
            ((before ++ [b, c]).length + 1) := by simp [Nat.add_right_comm]
      _ = .ok ((before ++ [b, c]).length + inner.length) := by rw [ih, heq]
      _ = .ok (before.length + (c :: d :: inner).length) := by simp; omega
  -- the closing quote ends the span
  | case4 d cs hescape =>
    rw [closingQuote, if_pos (by simp), charAt_append_succ, ok_bind, if_neg hescape, if_pos rfl]
    rfl
  -- any other character moves to those before
  | case5 c d cs hescape hquote inner rest heq ih =>
    rw [closingQuote, if_pos (by simp), charAt_append_succ, ok_bind, if_neg hescape, if_neg hquote]
    calc closingQuote (before ++ b :: c :: d :: cs) quote escapes (before.length + 1 + 1)
        = closingQuote (before ++ [b] ++ c :: d :: cs) quote escapes
            ((before ++ [b]).length + 1) := by simp
      _ = .ok ((before ++ [b]).length + inner.length) := by rw [ih, heq]
      _ = .ok (before.length + (c :: inner).length) := by simp; omega

/-- **The end of a tag** is that of the characters of tags. -/
theorem tagEnd_append (before : List Char) (b : Char) (cs : List Char) :
    tagEnd (before ++ b :: cs) (before.length + 1) =
      .ok (before.length + 1 + (cs.takeWhile isTagChar).length) := by
  -- the characters of the tag are passed one by one
  induction cs generalizing before b with
  | nil =>
    rw [tagEnd, if_neg (by simp)]
    rfl
  | cons c cs ih =>
    rw [tagEnd, if_pos (by simp), charAt_append_succ, ok_bind]
    by_cases hc : isTagChar c = true
    · rw [if_pos hc, List.takeWhile_cons_of_pos hc]
      calc tagEnd (before ++ b :: c :: cs) (before.length + 1 + 1)
          = tagEnd (before ++ [b] ++ c :: cs) ((before ++ [b]).length + 1) := by simp
        _ = .ok ((before ++ [b]).length + 1 + (cs.takeWhile isTagChar).length) := ih _ c
        _ = .ok (before.length + 1 + (c :: cs.takeWhile isTagChar).length) := by simp; omega
    · rw [if_neg hc, List.takeWhile_cons_of_neg hc]
      rfl

/-! ### Searches -/

/-- Up to the first character of some kind stand the others. -/
theorem getD_findIdx? (p : Char → Bool) (cs : List Char) :
    (cs.findIdx? p).getD cs.length = (cs.takeWhile fun c => !p c).length := by
  have hle : cs.findIdx p ≤ cs.length := List.findIdx_le_length
  simp only [List.takeWhile_eq_take_findIdx_not, Bool.not_not]
  rw [List.length_take_of_le hle, List.findIdx_eq_getD_findIdx?]

/-- What is cut off ends with the first mark, or is everything. -/
theorem getD_firstMark? (mark cs : List Char) :
    ((firstMark? mark cs).map (· + mark.length)).getD cs.length =
      (splitThrough mark cs).1.length := by
  induction cs with
  | nil => rfl
  | cons c cs ih =>
    rw [firstMark?, splitThrough]
    by_cases hmark : mark.isPrefixOf (c :: cs) = true
    · rw [if_pos hmark, if_pos hmark]
      exact Nat.zero_add mark.length
    · -- the mark stands further on, so both sides count one more
      have hnext : ((firstMark? mark cs).map (· + 1)).map (· + mark.length) =
          ((firstMark? mark cs).map (· + mark.length)).map (· + 1) := by
        rw [Option.map_map, Option.map_map]
        congr 1
        ext p
        exact Nat.add_right_comm p 1 mark.length
      rw [if_neg hmark, if_neg hmark, hnext, List.length_cons, Option.getD_map (· + 1), ih]
      rfl

/-- A mark that is looked for from a position on ends as far behind it as one that is looked for in
the characters there. -/
theorem getD_map_add (found : Option Nat) (start size stop : Nat) :
    (found.map (start + · + size)).getD (start + stop) =
      start + (found.map (· + size)).getD stop := by
  cases found with
  | none => rfl
  | some p => exact Nat.add_assoc start p size

/-! ### Spans -/

/-- The last character of a quoted span. -/
theorem quotedEnd_append (before : List Char) (quote : Char) (cs : List Char) :
    quotedEnd (before ++ quote :: cs) before.length =
      .ok (before.length +
        (splitQuoted quote (quote = '\x27' && opensEscapes before.reverse) cs).1.length) := by
  rw [quotedEnd, charAt_append, ok_bind]
  by_cases hquote : quote = '\x27'
  · rw [if_pos hquote, opensEscapesAt_append, decide_eq_true hquote, Bool.true_and]
    exact closingQuote_append quote _ before quote cs
  · rw [if_neg hquote, decide_eq_false hquote, Bool.false_and]
    exact closingQuote_append quote false before quote cs

/-- The tag of a dollar quote is looked for as it is by the scanner. -/
theorem dollarTag?_eq (cs : List Char) :
    dollarTag? cs =
      if (cs.drop (cs.takeWhile isTagChar).length).head? = some '$' && !cs.head?.any Char.isDigit
      then some (cs.takeWhile isTagChar) else none := rfl

/-- The mark that opens a body is taken from the text, and the body is what stands behind it. -/
theorem between_dollarMark (before tag body : List Char) :
    let cs := before ++ '$' :: (tag ++ '$' :: body)
    let j := before.length + 1 + tag.length
    between cs before.length (j + 1) = .ok ('$' :: tag ++ ['$']) ∧
      between cs (j + 1) cs.length = .ok body ∧ cs.length = j + 1 + body.length := by
  have hmark : '$' :: (tag ++ '$' :: body) = ('$' :: tag ++ ['$']) ++ body := by simp
  have hsize : before.length + 1 + tag.length + 1 = before.length + ('$' :: tag ++ ['$']).length :=
    by simp; omega
  dsimp only
  rw [hmark, hsize]
  refine ⟨between_append before _ body, ?_, ?_⟩
  · rw [← List.append_assoc, ← List.length_append, between_rest]
  · rw [← List.append_assoc, List.length_append, List.length_append]

/-- The end of a dollar-quoted span, if one opens. -/
theorem dollarQuoteEnd_append (before cs : List Char) :
    dollarQuoteEnd (before ++ '$' :: cs) before.length =
      .ok ((if followsName before.reverse then none else dollarTag? cs).map fun tag =>
        before.length + (1 + tag.length + 1 +
          (splitThrough ('$' :: tag ++ ['$']) (cs.drop (tag.length + 1))).1.length)) := by
  -- behind a name a dollar opens nothing
  rw [dollarQuoteEnd, followsNameAt_append, ok_bind]
  by_cases hname : followsName before.reverse = true
  · rw [if_pos hname, if_pos hname]
    rfl
  rw [if_neg hname, if_neg hname, tagEnd_append, ok_bind, getElem?_append_succ, dollarTag?_eq]
  generalize htag : cs.takeWhile isTagChar = tag
  -- what stands behind the tag is looked at by its position, and is the first character after it
  have hdollar : (before ++ '$' :: cs)[before.length + 1 + tag.length]? =
      (cs.drop tag.length).head? := by
    rw [List.head?_drop, List.getElem?_append_right (by omega), Nat.add_assoc,
      Nat.add_sub_cancel_left, Nat.add_comm, List.getElem?_cons_succ]
  rw [hdollar]
  split
  · next hopens =>
    -- the characters are the tag, a dollar and the body
    have hcs : tag ++ '$' :: cs.drop (tag.length + 1) = cs :=
      drop_of_dollarTag? (by rw [dollarTag?_eq, htag, if_pos hopens])
    generalize hrest : cs.drop (tag.length + 1) = body at hcs
    subst hcs
    obtain ⟨hmark, hbody, hend⟩ := between_dollarMark before tag body
    rw [hmark, ok_bind, hbody, ok_bind, findMark, if_neg (by simp), ok_bind, hend, getD_map_add,
      getD_firstMark?, Option.map_some, hrest]
    simp only [pure_eq_ok, Nat.add_assoc]
  · rfl

/-- **The span of a segment** that begins at a position: the same cut, told by where it ends. -/
def Segment.span (i : Nat) : Segment → Span
  | .verbatim cs => .copied (i + cs.length)
  | .reference name => .named (i + (name.length + 1))

/-- **A span is a segment.** At a position within the text no access fails. -/
theorem spanAt_eq (before : List Char) (c : Char) (cs : List Char) :
    spanAt (before ++ c :: cs) before.length =
      .ok ((splitSegment before.reverse c cs).1.span before.length) := by
  have hlength : (before ++ c :: cs).length = before.length + (1 + cs.length) := by simp; omega
  -- the conditions are those of `splitSegment`, one by one; each branch has its own accesses
  rw [spanAt, charAt_append, ok_bind, splitSegment, getElem?_append_succ]
  -- quotes of either kind
  split
  · rw [quotedEnd_append]
    rfl
  split
  · next hdollar =>
    subst hdollar
    rw [dollarQuoteEnd_append, ok_bind]
    generalize (if followsName before.reverse then none else dollarTag? cs) = opened
    cases opened with
    | none => rfl
    | some tag =>
      refine congrArg (fun n => Except.ok (Span.copied (before.length + n))) ?_
      simp only [List.cons_append, List.length_cons, List.length_append]
      omega
  split
  · -- the dash is taken along, for it ends no line
    next hline =>
    obtain ⟨hdash, -⟩ := Bool.and_eq_true_iff.1 hline
    have hdash : c = '-' := of_decide_eq_true hdash
    subst hdash
    rw [between_rest, ok_bind, List.length_append, Option.getD_map, getD_findIdx?,
      List.takeWhile_cons_of_pos (by decide)]
    rfl
  split
  · -- the star is there, so the two characters of the opening can be skipped
    next hblock =>
    obtain ⟨-, hstar⟩ := Bool.and_eq_true_iff.1 hblock
    obtain ⟨body, rfl⟩ := List.head?_eq_some_iff.1 (of_decide_eq_true hstar)
    have hbody : between (before ++ c :: '*' :: body) (before.length + 2)
        (before ++ c :: '*' :: body).length = .ok body := by
      simpa using between_rest (before ++ [c, '*']) body
    have hend : (before ++ c :: '*' :: body).length = before.length + 2 + body.length := by
      simp; omega
    have hmark : ((firstMark? ['*', '/'] body).map (· + 2)).getD body.length =
        (splitThrough ['*', '/'] body).1.length := getD_firstMark? ['*', '/'] body
    rw [hbody, ok_bind, findMark, if_neg (by decide), ok_bind, hend, getD_map_add, hmark]
    refine congrArg (fun n => Except.ok (Span.copied n)) ?_
    simp only [List.length_cons, List.drop_succ_cons, List.drop_zero]
    omega
  -- a pair of markers
  split
  · rfl
  -- a marker that begins a reference, unless a name stands before it
  by_cases hstart : (decide (c = marker) && cs.head?.any isNameStart) = true
  · rw [if_pos hstart, hstart, Bool.true_and, followsNameAt_append, ok_bind]
    by_cases hname : followsName before.reverse = true
    · rw [if_pos hname, if_neg (by simp [hname])]
      rfl
    · rw [if_neg hname, if_pos (by simp [hname])]
      have hrest : between (before ++ c :: cs) (before.length + 1) (before ++ c :: cs).length =
          .ok cs := by
        simpa using between_rest (before ++ [c]) cs
      rw [hrest, ok_bind, hlength, ← Nat.add_assoc, Option.getD_map, getD_findIdx?]
      refine congrArg (fun n => Except.ok (Span.named n)) ?_
      simp only [Bool.not_not]
      rw [Nat.add_assoc, Nat.add_comm 1]
  · rw [if_neg hstart, if_neg (by simp [hstart])]
    rfl

end QueryGateway.Sql
