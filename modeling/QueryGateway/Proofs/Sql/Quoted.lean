import QueryGateway.Proofs.Sql.Agreement
import QueryGateway.Proofs.Sql.Pieces

/-!
# What is quoted

References inside literals, quoted names and bodies are none. `quoted_is_kept_until_slip` says in
one statement when this is so and when it is not:

* a quoted lexeme is kept character by character if it and all lexemes before it are regular;
* a literal with escapes, all before it being regular, is not regular if and only if `slip?` finds a
  quote in it that a backslash escapes and the segments take for its end; and what has the form of a
  reference behind such a quote is replaced, although it stands inside the literal.
-/

namespace QueryGateway.Sql

/-- The segments up to a cut make up the characters up to it. -/
theorem segments_chars_of_cut {before u rest : List Char} {segs : List Segment}
    (h : segmentsAfter before (u ++ rest) = segs ++ segmentsAfter (u.reverse ++ before) rest) :
    segs.flatMap Segment.chars = u := by
  have hchars := congrArg (List.flatMap Segment.chars) h
  rw [List.flatMap_append, segmentsAfter_chars, segmentsAfter_chars] at hchars
  exact (List.append_cancel_right hchars).symm

/-- A lexeme among others is read from its characters and those behind it. -/
theorem exists_read_of_lexemesAfter {ctx : Lexeme.Context} {cs : List Char} {L R : List Lexeme}
    {lx : Lexeme} (h : lexemesAfter ctx cs = L ++ lx :: R) :
    ∃ ctx' c cs', Lexeme.read ctx' c cs' = (lx, R.flatMap Lexeme.chars) := by
  induction L generalizing ctx cs with
  | nil =>
    obtain ⟨c, cs', -, hread, -⟩ := lexemesAfter_eq_cons h
    exact ⟨ctx, c, cs', hread⟩
  | cons lx' L ih =>
    obtain ⟨c, cs', -, -, hrest⟩ := lexemesAfter_eq_cons h
    exact ih hrest

/-- A text around a lexeme. -/
theorem eq_of_lexemes {cs : List Char} {L R : List Lexeme} {lx : Lexeme}
    (h : lexemes cs = L ++ lx :: R) :
    cs = L.flatMap Lexeme.chars ++ (lx.chars ++ R.flatMap Lexeme.chars) := by
  have hchars : (lexemes cs).flatMap Lexeme.chars = cs := lexemesAfter_chars .plain cs
  rw [← hchars, h, List.flatMap_append, List.flatMap_cons]

/-- Behind regular lexemes a cut falls before what is quoted or a comment. -/
theorem isCut_of_lexemes {cs : List Char} {L R : List Lexeme} {lx : Lexeme}
    (h : lexemes cs = L ++ lx :: R) (hlx : lx.isCode = false)
    (hreg : areRegular [] L (lx.chars ++ R.flatMap Lexeme.chars) = true) :
    IsCut [] (L.flatMap Lexeme.chars) (lx.chars ++ R.flatMap Lexeme.chars) := by
  refine isCut_of_areRegular h hreg fun lx' hhead => ?_
  obtain rfl : lx = lx' := Option.some.inj hhead
  exact hlx

theorem areRegular_concat (before rest : List Char) (L : List Lexeme) (lx : Lexeme) :
    areRegular before (L ++ [lx]) rest =
      (areRegular before L (lx.chars ++ rest) &&
        lx.isRegular ((L.flatMap Lexeme.chars).reverse ++ before) rest) := by
  induction L generalizing before with
  | nil =>
    rw [List.nil_append, areRegular]
    exact Bool.and_comm _ _
  | cons lx' L ih =>
    rw [List.cons_append, areRegular, areRegular, ih, Bool.and_assoc, List.flatMap_append,
      List.flatMap_singleton, List.append_assoc, List.flatMap_cons, List.reverse_append,
      List.append_assoc]

theorem Lexeme.isCode_of_isQuoted {lx : Lexeme} (h : lx.isQuoted = true) : lx.isCode = false := by
  rw [isCode, h]
  rfl

/-! ### Regular lexemes -/

variable {cs : List Char} {L R : List Lexeme} {lx : Lexeme}

/-- The segments of a text around a quoted lexeme. -/
theorem exists_segments_of_isRegular (h : lexemes cs = L ++ lx :: R) (hquoted : lx.isQuoted = true)
    (hreg : areRegular [] (L ++ [lx]) (R.flatMap Lexeme.chars) = true) :
    ∃ l m r, segments cs = l ++ m ++ r ∧ l.flatMap Segment.chars = L.flatMap Lexeme.chars ∧
      m.flatMap Segment.chars = lx.chars ∧ ∀ s ∈ m, s = .verbatim s.chars := by
  rw [areRegular_concat, Bool.and_eq_true, List.append_nil] at hreg
  obtain ⟨hL, hlx⟩ := hreg
  -- the text is what the lexemes say, cut into three
  have hcs := eq_of_lexemes h
  -- up to the lexeme the two are in step, and the lexeme is kept
  have hcut := isCut_of_lexemes h (Lexeme.isCode_of_isQuoted hquoted) hL
  obtain ⟨ctx, c, cs', hread⟩ := exists_read_of_lexemesAfter h
  have hkept : IsKept (L.flatMap Lexeme.chars).reverse lx.chars (R.flatMap Lexeme.chars) := by
    refine isKept_of_isRegular hread hlx ?_ ?_
    · rintro rfl
      cases hquoted
    · rintro u rfl
      cases hquoted
  obtain ⟨l, hl⟩ := hcut
  obtain ⟨m, hverb, hm⟩ := hkept
  refine ⟨l, m, segmentsAfter (lx.chars.reverse ++ (L.flatMap Lexeme.chars).reverse)
    -- what is in front, the lexeme in segments of its own, and all that follows
    (R.flatMap Lexeme.chars), ?_, segments_chars_of_cut hl, segments_chars_of_cut hm, hverb⟩
  rw [List.append_nil, hm] at hl
  rw [segments, hcs, hl, List.append_assoc]

/-! ### Slips -/

/-- The segments of a text around a reference behind a slip. -/
theorem exists_segments_of_slip? {inner u g name v : List Char}
    (h : lexemes cs = L ++ .literal true ('\x27' :: inner) :: R)
    (hreg : areRegular [] L ('\x27' :: inner ++ R.flatMap Lexeme.chars) = true)
    (hslip : slip? (opensEscapes (L.flatMap Lexeme.chars).reverse) inner =
      some (u, g ++ marker :: (name ++ v)))
    (hplain : IsPlain g) (heven : trailingMarkers g % 2 = 0)
    (href : IsReference (L.flatMap Lexeme.chars ++ '\x27' :: u ++ g) name
      (v ++ R.flatMap Lexeme.chars)) :
    ∃ l r, segments cs = l ++ .reference name :: r ∧
      l.flatMap Segment.chars = L.flatMap Lexeme.chars ++ '\x27' :: u ++ g := by
  have hinner := slip?_append _ _ _ _ hslip
  -- the text up to the literal, and the literal with what follows
  have hcs : cs = L.flatMap Lexeme.chars ++ ('\x27' :: inner ++ R.flatMap Lexeme.chars) :=
    eq_of_lexemes h
  have hcut : IsCut [] (L.flatMap Lexeme.chars) ('\x27' :: inner ++ R.flatMap Lexeme.chars) :=
    isCut_of_lexemes h rfl hreg
  -- the segments are cut behind the slip, where what is left of the literal is read as code
  have hcut' : IsCut (L.flatMap Lexeme.chars).reverse ('\x27' :: u)
      (g ++ marker :: (name ++ v) ++ R.flatMap Lexeme.chars) := isCut_of_slip? _ _ _ hslip
  have hleft : ('\x27' :: u).reverse ++ (L.flatMap Lexeme.chars).reverse =
      (L.flatMap Lexeme.chars ++ '\x27' :: u).reverse := List.reverse_append.symm
  have hrest : g ++ marker :: (name ++ v) ++ R.flatMap Lexeme.chars =
      g ++ marker :: (name ++ (v ++ R.flatMap Lexeme.chars)) := by
    rw [List.append_assoc, List.cons_append, List.append_assoc]
  -- the segments in front, those up to the slip, and those from there to the reference
  obtain ⟨segs, hsegs⟩ := hcut
  obtain ⟨segs', hsegs'⟩ := hcut'
  have hchars := segments_chars_of_cut hsegs
  have hchars' := segments_chars_of_cut hsegs'
  rw [hrest, hleft] at hsegs'
  obtain ⟨l, r, hl, hlc⟩ := exists_reference_segmentsAfter
    (L.flatMap Lexeme.chars ++ '\x27' :: u).reverse _ g rfl hplain
    (by rw [List.reverse_reverse]; exact href) heven
  refine ⟨segs ++ segs' ++ l, r, ?_, ?_⟩
  · have hin : '\x27' :: inner ++ R.flatMap Lexeme.chars =
        '\x27' :: u ++ (g ++ marker :: (name ++ (v ++ R.flatMap Lexeme.chars))) := by
      rw [← hinner, ← hrest, List.cons_append, List.append_assoc, List.cons_append]
    rw [segments, hcs, hsegs, List.append_nil, hin, hsegs', hl]
    simp only [List.append_assoc]
  · rw [List.flatMap_append, List.flatMap_append, hchars, hchars', hlc]

/-! ### Both -/

/-- **Quoted characters are kept, until a slip.** The statement of a text command consists of pieces
of its text, kept or replaced, so that a quoted lexeme is kept if it and all lexemes before it are
regular; but in a literal with escapes in which a quote that a backslash escapes is taken for the
end, a reference behind that quote is replaced. -/
theorem quoted_is_kept_until_slip (d : CommandDescriptor) (slots : List (Option BindValue)) :
    ∃ pieces, d.text.toList = pieces.flatMap Piece.source ∧
      (numberMarkers d slots).sql.toList = pieces.flatMap Piece.output ∧
      (∀ L lx R, lexemes d.text.toList = L ++ lx :: R → lx.isQuoted = true →
        areRegular [] (L ++ [lx]) (R.flatMap Lexeme.chars) = true →
        ∃ l m r, pieces = l ++ m ++ r ∧ l.flatMap Piece.source = L.flatMap Lexeme.chars ∧
          m.flatMap Piece.source = lx.chars ∧ ∀ piece ∈ m, ∃ cs, piece = .kept cs) ∧
      (∀ L inner R u g name v i,
        lexemes d.text.toList = L ++ .literal true ('\x27' :: inner) :: R →
        areRegular [] L ('\x27' :: inner ++ R.flatMap Lexeme.chars) = true →
        slip? (opensEscapes (L.flatMap Lexeme.chars).reverse) inner =
          some (u, g ++ marker :: (name ++ v)) →
        IsPlain g → trailingMarkers g % 2 = 0 →
        IsReference (L.flatMap Lexeme.chars ++ '\x27' :: u ++ g) name
          (v ++ R.flatMap Lexeme.chars) →
        referent? d slots name = some i →
        ∃ l n r, pieces = l ++ .numbered name i n :: r ∧
          l.flatMap Piece.source = L.flatMap Lexeme.chars ++ '\x27' :: u ++ g) := by
  -- the pieces are those that the segments are numbered to
  refine ⟨numberPieces (referent? d slots) [] (segments d.text.toList), ?_, ?_, ?_, ?_⟩
  · exact (numberPieces_segments _ d.text.toList).symm
  · rw [numberMarkers, numberSegments_eq]
    exact String.toList_ofList
  · -- a quoted lexeme: segments of its own, all verbatim, become kept pieces
    intro L lx R h hquoted hreg
    obtain ⟨l, m, r, hsegs, hl, hm, hverb⟩ := exists_segments_of_isRegular h hquoted hreg
    obtain ⟨order, happend⟩ := exists_numberPieces_append (referent? d slots) [] (l ++ m) r
    obtain ⟨order', happend'⟩ := exists_numberPieces_append (referent? d slots) [] l m
    refine ⟨numberPieces (referent? d slots) [] l, numberPieces (referent? d slots) order' m,
      numberPieces (referent? d slots) order r, ?_, ?_, ?_, ?_⟩
    · rw [hsegs, happend, happend']
    · rw [numberPieces_chars, hl]
    · rw [numberPieces_chars, hm]
    · intro piece hpiece
      rw [numberPieces_of_verbatim _ _ hverb] at hpiece
      obtain ⟨s, -, rfl⟩ := List.mem_map.1 hpiece
      exact ⟨s.chars, rfl⟩
  · -- a slip: the segments have a reference there, and it refers to a parameter that travels
    intro L inner R u g name v i h hreg hslip hplain heven href hfind
    obtain ⟨l, r, hsegs, hl⟩ := exists_segments_of_slip? h hreg hslip hplain heven href
    obtain ⟨l', n, r', hpieces, hl'⟩ := exists_numberPieces_split [] l r hfind
    refine ⟨l', n, r', ?_, ?_⟩
    · rw [hsegs, hpieces]
    · rw [hl', hl]

/-- A command with a literal that is regular and one that is not. -/
def pairedQuotes : CommandDescriptor where
  timeoutSeconds := 30
  kind := .text
  text := "SELECT 'a''@id', E'a''b\\' @id'"
  parameters := [⟨"@id", .int, .input, true, none, none, none, none⟩]

/-- In the first literal the reference is kept. In the second it stands behind a doubled quote and
an escaped one, and is replaced. -/
theorem quoted_is_kept_until_slip_pairedQuotes :
    (numberMarkers pairedQuotes [some (.value (.int 3))]).sql = "SELECT 'a''@id', E'a''b\\' $1'" ∧
      ∃ pieces, pairedQuotes.text.toList = pieces.flatMap Piece.source ∧
        (∃ l m r, pieces = l ++ m ++ r ∧ l.flatMap Piece.source = "SELECT ".toList ∧
          m.flatMap Piece.source = "'a''@id'".toList ∧ ∀ piece ∈ m, ∃ cs, piece = .kept cs) ∧
        ∃ l n r, pieces = l ++ .numbered ['i', 'd'] 0 n :: r ∧
          l.flatMap Piece.source = "SELECT 'a''@id', E'a''b\\' ".toList := by
  -- both parts come from the theorem, at the lexemes of the two literals
  refine ⟨by decide +kernel, ?_⟩
  obtain ⟨pieces, hsource, -, hkept, hslip⟩ :=
    quoted_is_kept_until_slip pairedQuotes [some (.value (.int 3))]
  refine ⟨pieces, hsource, ?_, ?_⟩
  · exact hkept [.word "SELECT".toList, .symbol ' '] (.literal false "'a''@id'".toList)
      [.symbol ',', .symbol ' ', .word ['E'], .literal true "'a''b\\' @id'".toList]
      (by decide +kernel) rfl (by decide +kernel)
  · exact hslip [.word "SELECT".toList, .symbol ' ', .literal false "'a''@id'".toList, .symbol ',',
      .symbol ' ', .word ['E']] "a''b\\' @id'".toList [] "a''b\\'".toList [' '] ['i', 'd']
      ['\x27'] 0 (by decide +kernel) (by decide +kernel) (by decide +kernel) (by decide +kernel)
      (by decide +kernel) (by decide +kernel) (by decide +kernel)

/-- Each way not to be regular does harm: in each of these texts a reference inside a literal or a
body is cut off as one. -/
example : ∀ text ∈ ["E'a''\\' @i'", "éE'\\' ' @i '", "1$$ @i $$", "$é$ @i $é$", "--\r'\n @i '",
      "/* /* */ ' */ ' @i '", "é$$ ' $$ @i '"],
    .reference ['i'] ∈ segments text.toList ∧
      ∀ lx ∈ lexemes text.toList, 'i' ∈ lx.chars → lx.isQuoted = true := by
  decide +kernel

end QueryGateway.Sql
