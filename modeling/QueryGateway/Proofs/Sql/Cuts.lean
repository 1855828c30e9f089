import QueryGateway.Proofs.Sql.Lexemes
import QueryGateway.Proofs.Sql.References

/-!
# Cuts

Where the cuts between segments fall, in particular where quoted characters are concerned. Segments
are cut by looking at a character or two around, without any state. So a doubled quote ends one
segment and begins another, and whether backslashes escape is decided anew at each quote.

Quoted characters that are read alike all the same are kept, in as many segments as there are
doubled quotes (`isKept_readQuoted`). The others are literals with escapes in which a backslash
escapes a quote where it is not taken to. `slip?` looks for the first such quote, and behind it the
segments go on as if the literal were closed (`isCut_of_slip?`).
-/

namespace QueryGateway.Sql

/-! ### Cuts -/

/-- Whether a cut between segments falls behind `u`, with `rest` to follow. Where one does, the
segments in front and those behind can be looked at apart. -/
def IsCut (before u rest : List Char) : Prop :=
  ∃ segs, segmentsAfter before (u ++ rest) = segs ++ segmentsAfter (u.reverse ++ before) rest

/-- Whether the segments up to that cut are verbatim, so that nothing in `u` is replaced. -/
def IsKept (before u rest : List Char) : Prop :=
  ∃ segs, (∀ s ∈ segs, s = .verbatim s.chars) ∧
    segmentsAfter before (u ++ rest) = segs ++ segmentsAfter (u.reverse ++ before) rest

theorem IsKept.isCut {before u rest : List Char} (h : IsKept before u rest) :
    IsCut before u rest := by
  obtain ⟨segs, -, hsegs⟩ := h
  exact ⟨segs, hsegs⟩

theorem IsKept.nil (before rest : List Char) : IsKept before [] rest :=
  ⟨[], fun _ hs => absurd hs List.not_mem_nil, rfl⟩

theorem IsCut.append {before u v rest : List Char} (hu : IsCut before u (v ++ rest))
    (hv : IsCut (u.reverse ++ before) v rest) : IsCut before (u ++ v) rest := by
  obtain ⟨segs, hsegs⟩ := hu
  obtain ⟨segs', hsegs'⟩ := hv
  refine ⟨segs ++ segs', ?_⟩
  rw [List.append_assoc, hsegs, hsegs', List.reverse_append, List.append_assoc, List.append_assoc]

theorem IsKept.append {before u v rest : List Char} (hu : IsKept before u (v ++ rest))
    (hv : IsKept (u.reverse ++ before) v rest) : IsKept before (u ++ v) rest := by
  obtain ⟨segs, hverb, hsegs⟩ := hu
  obtain ⟨segs', hverb', hsegs'⟩ := hv
  refine ⟨segs ++ segs', ?_, ?_⟩
  · intro s hs
    rcases List.mem_append.1 hs with hs | hs
    · exact hverb s hs
    · exact hverb' s hs
  · rw [List.append_assoc, hsegs, hsegs', List.reverse_append, List.append_assoc, List.append_assoc]

/-- What is cut off as one segment ends at a cut. -/
theorem isCut_of_splitSegment {before cs rest : List Char} {c : Char} {s : Segment}
    (h : splitSegment before c cs = (s, rest)) : IsCut before s.chars rest := by
  have hchars := splitSegment_chars before c cs
  rw [h] at hchars
  refine ⟨[s], ?_⟩
  rw [hchars, segmentsAfter_cons, h]
  rfl

theorem isKept_of_splitSegment {before cs u rest : List Char} {c : Char}
    (h : splitSegment before c cs = (.verbatim u, rest)) : IsKept before u rest := by
  have hchars := splitSegment_chars before c cs
  rw [h] at hchars
  refine ⟨[.verbatim u], ?_, ?_⟩
  · intro s hs
    rw [List.mem_singleton.1 hs]
    rfl
  · change segmentsAfter before (Segment.chars (.verbatim u) ++ rest) = _
    rw [hchars, segmentsAfter_cons, h]
    rfl

/-! ### Quoted characters -/

theorem splitQuoted_quote {quote : Char} {aware : Bool} (hq : quote ≠ '\\') (cs : List Char) :
    splitQuoted quote aware (quote :: cs) = ([quote], cs) := by
  cases cs with
  | nil => rfl
  | cons d cs => rw [splitQuoted, if_neg (by simp [hq]), if_pos rfl]

theorem splitQuoted_cons {quote c : Char} {aware : Bool} (hescape : (aware && c = '\\') = false)
    (hq : c ≠ quote) (cs : List Char) :
    splitQuoted quote aware (c :: cs) =
      (c :: (splitQuoted quote aware cs).1, (splitQuoted quote aware cs).2) := by
  cases cs with
  | nil => rfl
  | cons d cs => rw [splitQuoted, if_neg (by simp [hescape]), if_neg hq]

theorem splitQuoted_escape {quote : Char} (d : Char) (cs : List Char) :
    splitQuoted quote true ('\\' :: d :: cs) =
      ('\\' :: d :: (splitQuoted quote true cs).1, (splitQuoted quote true cs).2) := by
  rw [splitQuoted, if_pos (by simp)]

/-- A backslash and a character that is no escaped quote go along, together or one after the other,
whether or not backslashes are taken to escape. -/
theorem splitQuoted_backslash {aware : Bool} {d : Char} (hd : (!aware && d = '\x27') = false)
    (cs : List Char) :
    splitQuoted '\x27' aware ('\\' :: d :: cs) =
      ('\\' :: d :: (splitQuoted '\x27' aware cs).1, (splitQuoted '\x27' aware cs).2) := by
  cases aware with
  | true => exact splitQuoted_escape d cs
  | false => rw [splitQuoted_cons rfl (by decide), splitQuoted_cons rfl (by simpa using hd)]

/-- Where something follows, the closing quote stands before it. -/
theorem getLast?_splitQuoted (quote : Char) (aware : Bool) (cs : List Char)
    (h : (splitQuoted quote aware cs).2 ≠ []) :
    (splitQuoted quote aware cs).1.getLast? = some quote := by
  -- by the characters: an end of the text leaves nothing, and a quote that closes is the last one
  fun_induction splitQuoted quote aware cs with
  | case1 => exact absurd rfl h
  | case2 c => exact absurd rfl h
  | case3 c d cs hc inner rest hs ih =>
    rw [hs] at ih
    have hlast := ih h
    cases inner with
    | nil => cases hlast
    | cons e inner => rwa [List.getLast?_cons_cons, List.getLast?_cons_cons]
  | case4 d cs hc => rfl
  | case5 c d cs hc hq inner rest hs ih =>
    rw [hs] at ih
    have hlast := ih h
    cases inner with
    | nil => cases hlast
    | cons e inner => rwa [List.getLast?_cons_cons]

/-! ### Slips -/

/-- **Where a quote that a backslash escapes is taken for the end:** the characters of a literal
through that quote, and those behind it. While `aware` holds, backslashes are taken to escape. -/
def slip? (aware : Bool) : List Char → Option (List Char × List Char)
  | c :: d :: cs =>
    if c = '\\' then
      if !aware && d = '\x27' then some ([c, d], cs)
      else (slip? aware cs).map fun s => (c :: d :: s.1, s.2)
    else if c = '\x27' then
      -- a doubled quote, behind which they are not
      if d = '\x27' then (slip? false cs).map fun s => (c :: d :: s.1, s.2) else none
    else (slip? aware (d :: cs)).map fun s => (c :: s.1, s.2)
  | _ => none

theorem slip?_cons {aware : Bool} {c : Char} (hescape : c ≠ '\\') (hquote : c ≠ '\x27')
    (cs : List Char) : slip? aware (c :: cs) = (slip? aware cs).map fun s => (c :: s.1, s.2) := by
  cases cs with
  | nil => rfl
  | cons d cs => rw [slip?, if_neg hescape, if_neg hquote]

/-- **What must hold for a literal to be read alike,** its inner characters being given. -/
def ReadsAlike (escapes aware : Bool) (inner : List Char) : Prop :=
  match escapes with
  | true => slip? aware inner = none
  | false => aware = false

/-- Behind a backslash and another character, a literal is still read alike. -/
theorem ReadsAlike.of_backslash {aware : Bool} {d : Char} {inner : List Char}
    (h : ReadsAlike true aware ('\\' :: d :: inner)) :
    (!aware && d = '\x27') = false ∧ ReadsAlike true aware inner := by
  change slip? aware ('\\' :: d :: inner) = none at h
  rw [slip?, if_pos rfl] at h
  split at h
  · cases h
  · next hd => exact ⟨Bool.of_not_eq_true hd, Option.map_eq_none_iff.1 h⟩

/-- Behind a doubled quote, a literal is read alike if backslashes are not taken to escape. -/
theorem ReadsAlike.of_pair {escapes aware : Bool} {quote : Char} {inner : List Char}
    (hliteral : escapes = true → quote = '\x27')
    (h : ReadsAlike escapes aware (quote :: quote :: inner)) : ReadsAlike escapes false inner := by
  cases escapes with
  | false => rfl
  | true =>
    obtain rfl := hliteral rfl
    change slip? aware ('\x27' :: '\x27' :: inner) = none at h
    rw [slip?, if_neg (by decide), if_pos rfl, if_pos rfl] at h
    exact Option.map_eq_none_iff.1 h

/-- A character that neither escapes nor closes changes nothing. -/
theorem ReadsAlike.of_cons {escapes aware : Bool} {quote c : Char} {inner : List Char}
    (hliteral : escapes = true → quote = '\x27') (hescape : (escapes && c = '\\') = false)
    (hc : c ≠ quote) (h : ReadsAlike escapes aware (c :: inner)) :
    (aware && c = '\\') = false ∧ ReadsAlike escapes aware inner := by
  -- without escapes there is nothing to be alike in
  cases escapes with
  | false =>
    obtain rfl : aware = false := h
    exact ⟨rfl, rfl⟩
  | true =>
    obtain rfl := hliteral rfl
    have hbackslash : c ≠ '\\' := by simpa using hescape
    change slip? aware (c :: inner) = none at h
    rw [slip?_cons hbackslash hc] at h
    exact ⟨by simp [hbackslash], Option.map_eq_none_iff.1 h⟩

/-- A segment ends where the lexeme does, or with the first of a pair of quotes. -/
theorem readQuoted_eq {quote : Char} {escapes : Bool} (hq : quote ≠ '\\')
    (hliteral : escapes = true → quote = '\x27') (cs : List Char) : ∀ aware,
    ReadsAlike escapes aware (Lexeme.readQuoted quote escapes cs).1 →
      Lexeme.readQuoted quote escapes cs = splitQuoted quote aware cs ∨
      ∃ more, (splitQuoted quote aware cs).2 = quote :: more ∧
        ReadsAlike escapes false (Lexeme.readQuoted quote escapes more).1 ∧
        Lexeme.readQuoted quote escapes cs =
          ((splitQuoted quote aware cs).1 ++ quote :: (Lexeme.readQuoted quote escapes more).1,
            (Lexeme.readQuoted quote escapes more).2) := by
  -- the cases of the reader: a pair, the closing quote, or any other character
  fun_induction Lexeme.readQuoted quote escapes cs with
  | case1 => exact fun aware h => Or.inl rfl
  | case2 c => exact fun aware h => Or.inl rfl
  | case3 c d cs hpair inner rest hread ih =>
    intro aware h
    rw [Bool.or_eq_true, Bool.and_eq_true, Bool.and_eq_true, decide_eq_true_eq, decide_eq_true_eq,
      decide_eq_true_eq] at hpair
    rw [hread] at ih
    -- the pair is an escaped character, or a quote that is doubled
    by_cases hc : c = '\\'
    · obtain rfl := hc
      obtain ⟨rfl, -⟩ := hpair.resolve_right fun hd => hq hd.1.symm
      obtain rfl := hliteral rfl
      obtain ⟨hd, hinner⟩ := ReadsAlike.of_backslash h
      rw [splitQuoted_backslash hd]
      rcases ih aware hinner with ih | ⟨more, hmore, halike, ih⟩
      · rw [← ih]
        exact Or.inl rfl
      · refine Or.inr ⟨more, hmore, halike, ?_⟩
        obtain ⟨rfl, rfl⟩ := Prod.mk.inj ih
        rfl
    · -- a doubled quote
      obtain ⟨rfl, rfl⟩ := hpair.resolve_left fun he => hc he.2
      refine Or.inr ⟨cs, ?_, ?_, ?_⟩
      · rw [splitQuoted_quote hq]
      · rw [hread]
        exact ReadsAlike.of_pair hliteral h
      · rw [splitQuoted_quote hq, hread]
        rfl
  -- the quote closes for both
  | case4 d cs hpair =>
    intro aware h
    rw [splitQuoted_quote hq]
    exact Or.inl rfl
  | case5 c d cs hpair hc inner rest hread ih =>
    intro aware h
    rw [hread] at ih
    have hescape : (escapes && c = '\\') = false := by
      refine Bool.of_not_eq_true fun he => hpair ?_
      rw [he, Bool.true_or]
    -- the character is read alike, and the rest decides
    obtain ⟨haware, hinner⟩ := ReadsAlike.of_cons hliteral hescape hc h
    rw [splitQuoted_cons haware hc]
    rcases ih aware hinner with ih | ⟨more, hmore, halike, ih⟩
    · rw [← ih]
      exact Or.inl rfl
    · refine Or.inr ⟨more, hmore, halike, ?_⟩
      obtain ⟨rfl, rfl⟩ := Prod.mk.inj ih
      rfl

/-- Whether backslashes are taken to escape in what a quote opens. The segments decide this by the
letter in front of the quote and what stands before it. -/
def isAware (before : List Char) (quote : Char) : Bool :=
  quote = '\x27' && opensEscapes before

theorem splitSegment_quote {quote : Char} (hq : quote = '\x27' ∨ quote = '"')
    (before cs : List Char) :
    splitSegment before quote cs =
      (.verbatim (quote :: (splitQuoted quote (isAware before quote) cs).1),
        (splitQuoted quote (isAware before quote) cs).2) := by
  rw [splitSegment, if_pos (by simpa using hq)]
  rfl

/-- Directly behind a quote nothing escapes. -/
theorem isAware_of_getLast? {before u : List Char} {quote : Char}
    (h : u.getLast? = some '\x27' ∨ u.getLast? = some '"') :
    isAware (u.reverse ++ before) quote = false := by
  have hopens : opensEscapes (u.reverse ++ before) = false := by
    rw [← List.head?_reverse] at h
    rcases h with h | h
    all_goals
      obtain ⟨v, hv⟩ := List.head?_eq_some_iff.1 h
      rw [hv, List.cons_append, opensEscapes]
      rfl
  rw [isAware, hopens, Bool.and_false]

/-- **What is quoted and read alike is kept,** in as many segments as it has doubled quotes. -/
theorem isKept_readQuoted {quote : Char} {escapes : Bool} (hq : quote = '\x27' ∨ quote = '"')
    (hliteral : escapes = true → quote = '\x27') (before cs : List Char)
    (h : ReadsAlike escapes (isAware before quote) (Lexeme.readQuoted quote escapes cs).1) :
    IsKept before (quote :: (Lexeme.readQuoted quote escapes cs).1)
      (Lexeme.readQuoted quote escapes cs).2 := by
  have hbackslash : quote ≠ '\\' := by
    rcases hq with rfl | rfl <;> decide
  -- the segment has all of it, or stops at the first quote of a pair
  rcases readQuoted_eq hbackslash hliteral cs _ h with heq | ⟨more, hmore, halike, heq⟩
  · rw [heq]
    exact isKept_of_splitSegment (splitSegment_quote hq before cs)
  · have happend := splitQuoted_append quote (isAware before quote) cs
    have hlast : (splitQuoted quote (isAware before quote) cs).1.getLast? = some quote :=
      getLast?_splitQuoted _ _ _ (by rw [hmore]; exact List.cons_ne_nil _ _)
    have hsplit := splitSegment_quote hq before cs
    rw [hmore] at happend hsplit
    generalize (splitQuoted quote (isAware before quote) cs).1 = piece at *
    have hlen : more.length < cs.length := by
      rw [← happend, List.length_append, List.length_cons]
      omega
    -- the first segment ends with a quote, so in the next nothing escapes
    have haware : isAware ((quote :: piece).reverse ++ before) quote = false := by
      refine isAware_of_getLast? ?_
      rw [List.getLast?_cons, hlast]
      rcases hq with rfl | rfl
      · exact Or.inl rfl
      · exact Or.inr rfl
    rw [← haware] at halike
    have hrest := isKept_readQuoted hq hliteral ((quote :: piece).reverse ++ before) more halike
    have hfirst : IsKept before (quote :: piece)
        (quote :: (Lexeme.readQuoted quote escapes more).1 ++
          (Lexeme.readQuoted quote escapes more).2) := by
      rw [List.cons_append, Lexeme.readQuoted_append]
      exact isKept_of_splitSegment hsplit
    rw [heq]
    exact hfirst.append hrest
termination_by cs.length

/-- A slip cuts the characters in two. -/
theorem slip?_append (aware : Bool) (inner : List Char) :
    ∀ u v, slip? aware inner = some (u, v) → u ++ v = inner := by
  -- by the cases of the search for the slip, which goes over escaped characters in twos
  fun_induction slip? aware inner with
  | case1 =>
    intro u v h
    cases h
    simp_all
  | case4 =>
    intro u v h
    cases h
  | case6 =>
    intro u v h
    cases h
  | case2 aware d cs hd ih =>
    intro u v h
    obtain ⟨s, hs, heq⟩ := Option.map_eq_some_iff.1 h
    cases heq
    rw [List.cons_append, List.cons_append, ih s.1 s.2 hs]
  | case3 aware cs hc ih =>
    intro u v h
    obtain ⟨s, hs, heq⟩ := Option.map_eq_some_iff.1 h
    cases heq
    rw [List.cons_append, List.cons_append, ih s.1 s.2 hs]
  | case5 aware c d cs hc hd ih =>
    intro u v h
    obtain ⟨s, hs, heq⟩ := Option.map_eq_some_iff.1 h
    cases heq
    rw [List.cons_append, ih s.1 s.2 hs]

/-- **Up to a slip, segments end where the literal would if it were closed there:** with its quote
or with the first of a pair of quotes. -/
theorem splitQuoted_of_slip? (rest : List Char) (aware : Bool) (inner : List Char) : ∀ u v,
    slip? aware inner = some (u, v) →
      splitQuoted '\x27' aware (inner ++ rest) = (u, v ++ rest) ∨
      ∃ piece more w, splitQuoted '\x27' aware (inner ++ rest) = (piece, '\x27' :: (more ++ rest)) ∧
        slip? false more = some (w, v) ∧ u = piece ++ '\x27' :: w ∧ more.length < inner.length := by
  -- the same cases; in the first the slip is here, and in the third a quote is doubled
  fun_induction slip? aware inner with
  | case1 aware d cs hd =>
    intro u v h
    cases h
    rw [Bool.and_eq_true, Bool.not_eq_true', decide_eq_true_eq] at hd
    obtain ⟨rfl, rfl⟩ := hd
    refine Or.inl ?_
    rw [List.cons_append, List.cons_append, splitQuoted_cons rfl (by decide),
      splitQuoted_quote (by decide)]
  | case4 =>
    intro u v h
    cases h
  | case6 =>
    intro u v h
    cases h
  | case2 aware d cs hd ih =>
    intro u v h
    obtain ⟨s, hs, heq⟩ := Option.map_eq_some_iff.1 h
    cases heq
    -- an escaped character before the slip
    rw [List.cons_append, List.cons_append, splitQuoted_backslash (Bool.of_not_eq_true hd)]
    rcases ih s.1 s.2 hs with ih | ⟨piece, more, w, ih, hmore, hw, hlen⟩
    · rw [ih]
      exact Or.inl rfl
    · refine Or.inr ⟨'\\' :: d :: piece, more, w, by rw [ih], hmore, by rw [hw]; rfl, ?_⟩
      rw [List.length_cons, List.length_cons]
      omega
  | case3 aware cs hc ih =>
    intro u v h
    obtain ⟨s, hs, heq⟩ := Option.map_eq_some_iff.1 h
    cases heq
    -- the first quote of the pair ends the segment, and the second begins another one
    refine Or.inr ⟨['\x27'], cs, s.1, ?_, hs, rfl, ?_⟩
    · rw [List.cons_append, List.cons_append, splitQuoted_quote (by decide)]
    · rw [List.length_cons, List.length_cons]
      omega
  | case5 aware c d cs hc hd ih =>
    intro u v h
    obtain ⟨s, hs, heq⟩ := Option.map_eq_some_iff.1 h
    cases heq
    rw [List.cons_append, splitQuoted_cons (by simp [hc]) hd]
    rcases ih s.1 s.2 hs with ih | ⟨piece, more, w, ih, hmore, hw, hlen⟩
    · rw [ih]
      exact Or.inl rfl
    · refine Or.inr ⟨c :: piece, more, w, by rw [ih], hmore, by rw [hw]; rfl, ?_⟩
      rw [List.length_cons]
      omega

/-- **Behind a slip, segments are cut as if the literal were closed.** -/
theorem isCut_of_slip? (before inner rest : List Char) {u v : List Char}
    (h : slip? (isAware before '\x27') inner = some (u, v)) :
    IsCut before ('\x27' :: u) (v ++ rest) := by
  have hsplit := splitSegment_quote (Or.inl rfl) before (inner ++ rest)
  -- the slip ends the segment, or a pair before it does, and then the next segment is shorter
  rcases splitQuoted_of_slip? rest _ inner u v h with heq | ⟨piece, more, w, heq, hmore, rfl, hlen⟩
  · rw [heq] at hsplit
    exact (isKept_of_splitSegment hsplit).isCut
  · rw [heq] at hsplit
    have hlast : piece.getLast? = some '\x27' := by
      have hclosed := getLast?_splitQuoted '\x27' (isAware before '\x27') (inner ++ rest)
      rw [heq] at hclosed
      exact hclosed (List.cons_ne_nil _ _)
    -- in what the second quote of the pair opens nothing escapes
    have haware : isAware (('\x27' :: piece).reverse ++ before) '\x27' = false := by
      refine isAware_of_getLast? (Or.inl ?_)
      rw [List.getLast?_cons, hlast]
      rfl
    rw [← haware] at hmore
    have hrest := isCut_of_slip? (('\x27' :: piece).reverse ++ before) more rest hmore
    have hchars : '\x27' :: (more ++ rest) = ('\x27' :: w) ++ (v ++ rest) := by
      rw [← slip?_append _ _ _ _ hmore, List.cons_append, List.append_assoc]
    rw [hchars] at hsplit
    exact (isKept_of_splitSegment hsplit).isCut.append hrest
termination_by inner.length

end QueryGateway.Sql
