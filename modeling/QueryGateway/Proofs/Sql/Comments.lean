import QueryGateway.Proofs.Sql.Quoted

/-!
# What is skipped for a comment

References inside comments are none. Segments skip a comment up to an end that they find in their
own way (`Lexeme.skipped`): a comment of a line up to the next line feed, and a block comment
through the next mark that ends one. Up to there everything is kept, and behind it a reference is
replaced (`comment_is_kept_until_slip`).

So the two slips are at the ends. A carriage return alone ends a line comment but not what is
skipped for it, and a block comment within another ends what is skipped for both.
-/

namespace QueryGateway.Sql

namespace Lexeme

/-! ### Comments and their ends -/

/-- **What is skipped for a comment,** `rest` being what follows it. The two kinds slip in different
directions: one may skip too much, the other too little. -/
def skipped (rest : List Char) : Lexeme → List Char
  | .lineComment cs => cs ++ rest.takeWhile (· != '\n')
  | .blockComment cs => cs.take 2 ++ (readThrough ['*', '/'] (cs.drop 2)).1
  | _ => []

/-- A comment that something follows ends with the mark. -/
theorem suffix_readBlock (n : Nat) (cs : List Char) :
    (readBlock n cs).2 = [] ∨ ['*', '/'] <:+ (readBlock n cs).1 := by
  -- by the characters the reader goes through; a comment inside is closed before this one can be
  fun_induction readBlock n cs with
  | case1 n => exact Or.inl rfl
  | case2 n c => exact Or.inl rfl
  | case3 n c d cs hopen inner rest hr ih =>
    rw [hr] at ih
    exact ih.imp_right fun h => h.trans ((List.suffix_cons d inner).trans (List.suffix_cons c _))
  | case4 c d cs hopen hclose =>
    obtain ⟨hc, hd⟩ := Bool.and_eq_true_iff.1 hclose
    rw [of_decide_eq_true hc, of_decide_eq_true hd]
    exact Or.inr List.suffix_rfl
  | case5 c d cs hopen hclose n inner rest hr ih =>
    rw [hr] at ih
    exact ih.imp_right fun h => h.trans ((List.suffix_cons d inner).trans (List.suffix_cons c _))
  | case6 n c d cs hopen hclose inner rest hr ih =>
    rw [hr] at ih
    exact ih.imp_right fun h => h.trans (List.suffix_cons c inner)

/-- A block comment begins with its two characters, and ends with the two that close it unless the
text ends first. -/
theorem read_eq_blockComment {ctx : Context} {c : Char} {cs u rest : List Char}
    (h : read ctx c cs = (.blockComment u, rest)) :
    ∃ v, u = '/' :: '*' :: v ∧ (rest = [] ∨ ['*', '/'] <:+ v) := by
  -- only one of the ways to read gives this lexeme
  unfold read at h
  split at h
  · cases h
  split at h
  · cases h
  split at h
  · split at h <;> cases h
  split at h
  · cases h
  split at h
  · next hc =>
    obtain ⟨rfl, cs, rfl⟩ := eq_of_opener hc
    cases h
    exact ⟨_, rfl, suffix_readBlock 0 cs⟩
  split at h
  · cases h
  split at h <;> cases h

/-! ### Up to a mark -/

variable {mark cs : List Char}

/-- Behind the first mark nothing has a say. -/
theorem readThrough_append_of_infix (h : mark <:+: cs) (rest : List Char) :
    readThrough mark (cs ++ rest) = ((readThrough mark cs).1, (readThrough mark cs).2 ++ rest) := by
  induction cs with
  | nil =>
    obtain rfl := List.infix_nil.1 h
    cases rest <;> rfl
  | cons c cs ih =>
    rw [List.cons_append, readThrough, readThrough]
    by_cases hm : mark <+: c :: cs
    · -- the mark stands here
      have hm' : mark <+: c :: (cs ++ rest) := hm.trans (List.prefix_append _ rest)
      rw [if_pos hm, if_pos hm', ← List.cons_append, List.take_append_of_le_length hm.length_le,
        List.drop_append_of_le_length hm.length_le]
    · -- it does not, and cannot begin here and reach into `rest`, being no longer than `c :: cs`
      have hm' : ¬ mark <+: c :: (cs ++ rest) := fun hp =>
        hm (List.prefix_of_prefix_length_le hp (List.prefix_append (c :: cs) rest) h.length_le)
      rw [if_neg hm, if_neg hm', ih ((List.infix_cons_iff.1 h).resolve_left hm)]

/-- What is read through a mark ends with it, if anything is left. -/
theorem suffix_readThrough (h : (readThrough mark cs).2 ≠ []) :
    mark <:+ (readThrough mark cs).1 := by
  induction cs with
  | nil => exact absurd rfl h
  | cons c cs ih =>
    rw [readThrough] at h ⊢
    by_cases hm : mark <+: c :: cs
    · rw [if_pos hm, ← List.prefix_iff_eq_take.1 hm]
    · rw [if_neg hm] at h ⊢
      exact (ih h).trans (List.suffix_cons c _)

/-- All is read through a mark, unless something stands behind one. -/
theorem readThrough_fst_eq_self_iff :
    -- the mark that is stopped at is the first, so nothing is behind it iff no text is
    (readThrough mark cs).1 = cs ↔ ¬ ∃ u v, cs = u ++ mark ++ v ∧ v ≠ [] := by
  have happend := readThrough_append mark cs
  constructor
  · rintro h ⟨u, v, rfl, hv⟩
    have hleft : readThrough mark (u ++ mark ++ v) = _ :=
      readThrough_append_of_infix (List.suffix_append u mark).isInfix v
    rw [h] at happend
    have hnil := List.append_right_eq_self.1 happend
    rw [hleft] at hnil
    exact hv (List.append_eq_nil_iff.1 hnil).2
  · -- what is left behind the first mark is not empty, if anything is left
    intro h
    have hnil : (readThrough mark cs).2 = [] := by
      by_contra hne
      obtain ⟨u, hu⟩ := suffix_readThrough hne
      exact h ⟨u, _, by rw [hu, happend], hne⟩
    rwa [hnil, List.append_nil] at happend

/-! ### Both ends of a comment -/

/-- A line comment is skipped to its end, unless a carriage return ends it. -/
theorem skipped_lineComment_eq_iff {ctx : Context} {c : Char} {cs u rest : List Char}
    (h : read ctx c cs = (.lineComment u, rest)) :
    skipped rest (.lineComment u) = u ↔ rest.head? ≠ some '\r' := by
  obtain ⟨-, -, -, hend⟩ := read_eq_lineComment h
  rw [skipped, List.append_right_eq_self]
  cases rest with
  | nil => exact ⟨fun _ => by simp, fun _ => rfl⟩
  | cons d rest =>
    have hline : isLineEnd d = true := hend d rfl
    rw [isLineEnd, Bool.or_eq_true, decide_eq_true_eq, decide_eq_true_eq] at hline
    rcases hline with rfl | rfl <;> simp

/-- A block comment is skipped to its end, unless a mark that ends one stands in it. -/
theorem skipped_blockComment_eq_iff (v rest : List Char) :
    skipped rest (.blockComment ('/' :: '*' :: v)) = '/' :: '*' :: v ↔
      ¬ ∃ w t, v = w ++ ['*', '/'] ++ t ∧ t ≠ [] := by
  rw [← readThrough_fst_eq_self_iff]
  exact (List.cons_inj_right '/').trans (List.cons_inj_right '*')

end Lexeme

/-- What is skipped for a comment is one segment. -/
theorem exists_splitSegment_comment {ctx : Lexeme.Context} {c : Char} {cs rest : List Char}
    {lx : Lexeme} (hread : Lexeme.read ctx c cs = (lx, rest)) (hcomment : lx.isComment = true)
    (before : List Char) :
    ∃ after, splitSegment before c cs = (.verbatim (lx.skipped rest), after) := by
  have hchars := Lexeme.read_chars ctx c cs
  rw [hread] at hchars
  -- only comments are asked about
  cases lx with
  | literal _ _ | quotedName _ | body _ _ | word _ | number _ | symbol _ => cases hcomment
  | lineComment u =>
    obtain ⟨v, rfl, hv, -⟩ := Lexeme.read_eq_lineComment hread
    obtain ⟨rfl, rfl⟩ := List.cons.inj hchars
    -- the segment goes to the end of the line, which no character of the comment is
    have hfeed : ∀ d ∈ v, d ≠ '\n' := by
      rintro d hd rfl
      cases hv _ hd
    exact ⟨_, splitSegment_lineComment before hfeed rest⟩
  | blockComment u =>
    obtain ⟨v, rfl, hend⟩ := Lexeme.read_eq_blockComment hread
    obtain ⟨rfl, rfl⟩ := List.cons.inj hchars
    -- the first mark stands in the comment, unless nothing follows it
    have hthrough : (splitThrough ['*', '/'] (v ++ rest)).1 =
        (Lexeme.readThrough ['*', '/'] v).1 := by
      rw [← readThrough_eq]
      rcases hend with rfl | hend
      · rw [List.append_nil]
      · rw [Lexeme.readThrough_append_of_infix hend.isInfix]
    have hsplit := splitSegment_blockComment before (v ++ rest)
    rw [hthrough] at hsplit
    exact ⟨_, hsplit⟩

/-- The segments of a text around a comment. -/
theorem exists_segments_of_comment {cs : List Char} {L R : List Lexeme} {lx : Lexeme}
    (h : lexemes cs = L ++ lx :: R) (hcomment : lx.isComment = true)
    (hreg : areRegular [] L (lx.chars ++ R.flatMap Lexeme.chars) = true) :
    ∃ l after, segments cs = l ++ .verbatim (lx.skipped (R.flatMap Lexeme.chars)) ::
        segmentsAfter (L.flatMap Lexeme.chars ++ lx.skipped (R.flatMap Lexeme.chars)).reverse
          after ∧
      l.flatMap Segment.chars = L.flatMap Lexeme.chars ∧
      lx.skipped (R.flatMap Lexeme.chars) ++ after = lx.chars ++ R.flatMap Lexeme.chars := by
  have hcode : lx.isCode = false := by
    rw [Lexeme.isCode, hcomment, Bool.not_true, Bool.and_false]
  -- the lexeme is read from some characters, whose segment starts at the same place
  obtain ⟨ctx, c, cs', hread⟩ := exists_read_of_lexemesAfter h
  obtain ⟨after, hsplit⟩ :=
    exists_splitSegment_comment hread hcomment (L.flatMap Lexeme.chars).reverse
  have hread_chars := Lexeme.read_chars ctx c cs'
  have hsplit_chars := splitSegment_chars (L.flatMap Lexeme.chars).reverse c cs'
  rw [hread] at hread_chars
  rw [hsplit] at hsplit_chars
  -- in front the segments and the lexemes are in step
  obtain ⟨l, hl⟩ := isCut_of_lexemes h hcode hreg
  refine ⟨l, after, ?_, segments_chars_of_cut hl, hsplit_chars.trans hread_chars.symm⟩
  rw [segments, eq_of_lexemes h, hl, List.append_nil, hread_chars, segmentsAfter_cons, hsplit,
    List.reverse_append]
  rfl

/-! ### Text commands -/

/-- **Comments are kept and what follows them is replaced, until a slip.** The statement of a text
command consists of pieces of its text, kept or replaced. If the lexemes before a comment are
regular, one piece is what is skipped for the comment, which is kept, and a reference behind that is
replaced. A line comment is skipped at least to its end, and exactly unless a carriage return ends
it; a block comment at most to its end, and exactly unless a mark that ends one stands in it. -/
theorem comment_is_kept_until_slip (d : CommandDescriptor) (slots : List (Option BindValue)) :
    ∃ pieces, d.text.toList = pieces.flatMap Piece.source ∧
      (numberMarkers d slots).sql.toList = pieces.flatMap Piece.output ∧
      ∀ L lx R, lexemes d.text.toList = L ++ lx :: R → lx.isComment = true →
        areRegular [] L (lx.chars ++ R.flatMap Lexeme.chars) = true →
        let before := L.flatMap Lexeme.chars
        let rest := R.flatMap Lexeme.chars
        let span := lx.skipped rest
        (∃ l r, pieces = l ++ .kept span :: r ∧ l.flatMap Piece.source = before) ∧
        (∀ g name v i, lx.chars ++ rest = span ++ (g ++ marker :: (name ++ v)) → IsPlain g →
          trailingMarkers g % 2 = 0 → IsReference (before ++ span ++ g) name v →
          referent? d slots name = some i →
          ∃ l n r, pieces = l ++ .numbered name i n :: r ∧
            l.flatMap Piece.source = before ++ span ++ g) ∧
        (∀ cs, lx = .lineComment cs → cs <+: span ∧ (span = cs ↔ rest.head? ≠ some '\r')) ∧
        ∀ cs, lx = .blockComment cs → span <+: cs ∧
          (span = cs ↔ ¬ ∃ u v, cs = '/' :: '*' :: (u ++ ['*', '/'] ++ v) ∧ v ≠ []) := by
  -- the pieces are those that the segments are numbered to
  refine ⟨numberPieces (referent? d slots) [] (segments d.text.toList), ?_, ?_, ?_⟩
  · exact (numberPieces_segments _ d.text.toList).symm
  · rw [numberMarkers, numberSegments_eq]
    exact String.toList_ofList
  -- the lexeme stands where a segment begins, so the pieces split there
  intro L lx R h hcomment hreg before rest span
  obtain ⟨l, after, hsegs, hl, hafter⟩ := exists_segments_of_comment h hcomment hreg
  obtain ⟨ctx, c, cs', hread⟩ := exists_read_of_lexemesAfter h
  -- what is kept, what is replaced behind it, and how far the two kinds of comment are skipped
  refine ⟨?_, ?_, ?_, ?_⟩
  · obtain ⟨order, happend⟩ := exists_numberPieces_append (referent? d slots) [] l
      (.verbatim span :: segmentsAfter (before ++ span).reverse after)
    refine ⟨numberPieces (referent? d slots) [] l, numberPieces (referent? d slots) order
      (segmentsAfter (before ++ span).reverse after), ?_, (numberPieces_chars _ [] l).trans hl⟩
    rw [hsegs, happend, numberPieces]
  · -- behind the comment the segments begin anew, and a reference is found as at the start of a
    -- text
    intro g name v i hbehind hplain heven href hfind
    have hcs : after = g ++ marker :: (name ++ v) :=
      List.append_cancel_left (hafter.trans hbehind)
    obtain ⟨l', r', hl', hlc⟩ := exists_reference_segmentsAfter (before ++ span).reverse after g
      hcs hplain (by rw [List.reverse_reverse]; exact href) heven
    obtain ⟨p, n, q, hpieces, hp⟩ :=
      exists_numberPieces_split [] (l ++ .verbatim span :: l') r' hfind
    refine ⟨p, n, q, ?_, ?_⟩
    · rw [← hpieces, hsegs, hl', List.append_assoc, List.cons_append]
    · rw [hp, List.flatMap_append, List.flatMap_cons, hl, hlc, List.append_assoc]
      rfl
  · rintro cs rfl
    exact ⟨List.prefix_append cs _, Lexeme.skipped_lineComment_eq_iff hread⟩
  · -- the first mark that ends one is looked for in the comment alone
    rintro cs rfl
    obtain ⟨w, rfl, -⟩ := Lexeme.read_eq_blockComment hread
    refine ⟨?_, (Lexeme.skipped_blockComment_eq_iff w rest).trans (not_congr ?_)⟩
    · exact ⟨_, congrArg ('/' :: '*' :: ·) (Lexeme.readThrough_append _ w)⟩
    · simp only [List.cons.injEq, true_and]

/-- A command with a comment, and with another that has a comment within. -/
def nestedComments : CommandDescriptor where
  timeoutSeconds := 30
  kind := .text
  text := "/* @id */ @id /* /* */ @id */"
  parameters := [⟨"@id", .int, .input, true, none, none, none, none⟩]

/-- The first comment is kept and the reference behind it replaced. The second is skipped up to the
end of the comment within, and a reference that it still holds is replaced. -/
theorem comment_is_kept_until_slip_nestedComments :
    (numberMarkers nestedComments [some (.value (.int 3))]).sql =
        "/* @id */ $1 /* /* */ $1 */" ∧
      ∃ pieces, nestedComments.text.toList = pieces.flatMap Piece.source ∧
        (∃ l r, pieces = l ++ .kept "/* @id */".toList :: r ∧ l.flatMap Piece.source = []) ∧
        (∃ l n r, pieces = l ++ .numbered ['i', 'd'] 0 n :: r ∧
          l.flatMap Piece.source = "/* @id */ ".toList) ∧
        ∃ l n r, pieces = l ++ .numbered ['i', 'd'] 0 n :: r ∧
          l.flatMap Piece.source = "/* @id */ @id /* /* */ ".toList := by
  refine ⟨by decide +kernel, ?_⟩
  -- the comment at the start comes with no lexemes before it
  obtain ⟨pieces, hsource, -, hcomment⟩ :=
    comment_is_kept_until_slip nestedComments [some (.value (.int 3))]
  obtain ⟨hkept, hbehind, -⟩ := hcomment [] (.blockComment "/* @id */".toList)
    [.symbol ' ', .symbol marker, .word ['i', 'd'], .symbol ' ',
      .blockComment "/* /* */ @id */".toList] (by decide +kernel) rfl (by decide +kernel)
  -- the second comment, with the first one and the reference as regular lexemes before it
  obtain ⟨-, hslip, -⟩ := hcomment [.blockComment "/* @id */".toList, .symbol ' ', .symbol marker,
    .word ['i', 'd'], .symbol ' '] (.blockComment "/* /* */ @id */".toList) [] (by decide +kernel)
    rfl (by decide +kernel)
  refine ⟨pieces, hsource, hkept, ?_, ?_⟩
  · exact hbehind [' '] ['i', 'd'] " /* /* */ @id */".toList 0 (by decide +kernel)
      (by decide +kernel) (by decide +kernel) (by decide +kernel) (by decide +kernel)
  · exact hslip [' '] ['i', 'd'] " */".toList 0 (by decide +kernel) (by decide +kernel)
      (by decide +kernel) (by decide +kernel) (by decide +kernel)

/-- A carriage return ends a comment, but what is skipped for it goes on to the line feed. -/
example :
    lexemes "-- a\r@i\n@i".toList = [.lineComment "-- a".toList, .symbol '\r', .symbol marker,
      .word ['i'], .symbol '\n', .symbol marker, .word ['i']] ∧
    segments "-- a\r@i\n@i".toList =
      [.verbatim "-- a\r@i".toList, .verbatim ['\n'], .reference ['i']] := by
  decide +kernel

end QueryGateway.Sql
