import Mathlib.Data.List.Infix
import QueryGateway.Sql.Marker

/-!
# References

Which names in a text are references. Read one way, `isReference_of_segments` says that a segment
that is a reference has the form of one: a name that is as long as it can be, behind a marker that
ends no name. Read the other way, `exists_reference_segmentsAfter` says that behind characters
without quotes, dollars and comments nothing of that form is missed, unless the markers pair up.

Both go through the segments from left to right, so both are stated for the characters behind an
arbitrary `before` and proved by the recursion of `segmentsAfter`.
-/

namespace QueryGateway.Sql

/-! ### One segment -/

theorem segmentsAfter_nil (before : List Char) : segmentsAfter before [] = [] := by
  rw [segmentsAfter]

theorem segmentsAfter_cons (before : List Char) (c : Char) (cs : List Char) :
    segmentsAfter before (c :: cs) =
      (splitSegment before c cs).1 ::
        segmentsAfter ((splitSegment before c cs).1.chars.reverse ++ before)
          (splitSegment before c cs).2 := by
  rw [segmentsAfter]

/-- A reference can only be cut off where a marker stands before a name and behind none. -/
theorem splitSegment_eq_reference {before : List Char} {c : Char} {cs name rest : List Char}
    (h : splitSegment before c cs = (.reference name, rest)) :
    c = marker ∧ cs.head?.any isNameStart = true ∧ followsName before = false ∧
      name = cs.takeWhile isNameChar ∧ rest = cs.dropWhile isNameChar := by
  -- of the ways to cut a segment, one gives a reference
  unfold splitSegment at h
  split at h
  · cases h
  split at h
  · split at h <;> cases h
  split at h
  · cases h
  split at h
  · cases h
  split at h
  · cases h
  split at h
  · next hc =>
    rw [Bool.and_eq_true, Bool.and_eq_true, decide_eq_true_eq, Bool.not_eq_true'] at hc
    obtain ⟨⟨hmarker, hstart⟩, hbefore⟩ := hc
    cases h
    exact ⟨hmarker, hstart, hbefore, rfl, rfl⟩
  · cases h

/-- The segments make up the text. -/
theorem segmentsAfter_chars (before cs : List Char) :
    (segmentsAfter before cs).flatMap Segment.chars = cs := by
  induction before, cs using segmentsAfter.induct with
  | case1 before => rw [segmentsAfter_nil, List.flatMap_nil]
  | case2 before c cs next ih =>
    rw [segmentsAfter_cons, List.flatMap_cons, ih, splitSegment_chars]

/-- No segment is empty. -/
theorem segmentsAfter_chars_ne_nil (before cs : List Char) :
    ∀ s ∈ segmentsAfter before cs, s.chars ≠ [] := by
  induction before, cs using segmentsAfter.induct with
  -- along the segments as they are cut off
  | case1 before =>
    intro s hs
    rw [segmentsAfter_nil] at hs
    cases hs
  | case2 before c cs next ih =>
    intro s hs
    rw [segmentsAfter_cons] at hs
    rcases List.mem_cons.1 hs with rfl | hs
    · -- what follows it is shorter than the characters with `c`
      intro hnil
      have hlen := congrArg List.length (splitSegment_chars before c cs)
      have hle := splitSegment_length_le before c cs
      rw [hnil, List.nil_append, List.length_cons] at hlen
      omega
    · exact ih s hs

/-! ### The form of a reference -/

/-- **The form of a reference** between the characters before its marker and those behind its
name. -/
structure IsReference (before name after : List Char) : Prop where
  /-- The name begins as a name. -/
  start : name.head?.any isNameStart = true
  /-- The name is a name. -/
  chars : ∀ c ∈ name, isNameChar c = true
  /-- The marker ends no name. -/
  before : before.getLast?.any isNameChar = false
  /-- The name goes no further. -/
  after : after.head?.any isNameChar = false

instance (before name after : List Char) : Decidable (IsReference before name after) :=
  decidable_of_iff
    (name.head?.any isNameStart = true ∧ name.all isNameChar = true ∧
      before.getLast?.any isNameChar = false ∧ after.head?.any isNameChar = false)
    ⟨fun ⟨hstart, hchars, hbefore, hafter⟩ =>
        ⟨hstart, List.all_eq_true.1 hchars, hbefore, hafter⟩,
      fun h => ⟨h.start, List.all_eq_true.2 h.chars, h.before, h.after⟩⟩

theorem followsName_reverse (cs : List Char) :
    followsName cs.reverse = cs.getLast?.any isNameChar := by
  rw [followsName, List.head?_reverse]

/-- Behind a run of characters stands none that would belong to it. -/
theorem head?_dropWhile_any (p : Char → Bool) (cs : List Char) :
    (cs.dropWhile p).head?.any p = false := by
  have hnot := List.head?_dropWhile_not p cs
  cases hd : (cs.dropWhile p).head? with
  | none => rfl
  | some d =>
    rw [hd] at hnot
    exact hnot

theorem isNameChar_of_isNameStart {c : Char} (h : isNameStart c = true) : isNameChar c = true := by
  rw [isNameStart, Bool.or_eq_true] at h
  rw [isNameChar, Char.isAlphanum]
  rcases h with h | h <;> simp [h]

theorem head?_takeWhile_name {cs : List Char} (h : cs.head?.any isNameStart = true) :
    (cs.takeWhile isNameChar).head?.any isNameStart = true := by
  cases cs with
  | nil => exact h
  | cons c cs =>
    rw [List.takeWhile_cons_of_pos (isNameChar_of_isNameStart h)]
    exact h

/-- A reference that is cut off has the form of one: its name starts and goes on as names do, it
follows no name, and no name character comes after it. -/
theorem isReference_of_segmentsAfter {r : List Segment} {name : List Char} (before cs : List Char) :
    ∀ l, segmentsAfter before cs = l ++ .reference name :: r →
      IsReference (before.reverse ++ l.flatMap Segment.chars) name (r.flatMap Segment.chars) := by
  -- along the segments, with what has been passed kept in reverse
  induction before, cs using segmentsAfter.induct with
  | case1 before =>
    intro l h
    rw [segmentsAfter_nil] at h
    cases l <;> cases h
  | case2 before c cs next ih =>
    intro l h
    rw [segmentsAfter_cons] at h
    cases l with
    | nil =>
      -- the reference is the first segment
      rw [List.nil_append, List.cons.injEq] at h
      obtain ⟨hfirst, hrest⟩ := h
      have hsplit : splitSegment before c cs = (.reference name, (splitSegment before c cs).2) :=
        Prod.ext hfirst rfl
      obtain ⟨-, hstart, hbefore, hname, hdrop⟩ := splitSegment_eq_reference hsplit
      have hafter : r.flatMap Segment.chars = cs.dropWhile isNameChar := by
        rw [← hrest, segmentsAfter_chars, hdrop]
      refine ⟨?_, ?_, ?_, ?_⟩
      · rw [hname]
        exact head?_takeWhile_name hstart
      · rw [hname]
        exact List.all_eq_true.1 List.all_takeWhile
      · rw [List.flatMap_nil, List.append_nil, ← followsName_reverse, List.reverse_reverse]
        exact hbefore
      · rw [hafter]
        exact head?_dropWhile_any isNameChar cs
    -- the reference stands behind the first segment, which moves to what has been passed
    | cons s l =>
      rw [List.cons_append, List.cons.injEq] at h
      obtain ⟨hfirst, hrest⟩ := h
      have hrest := ih l hrest
      change IsReference (((splitSegment before c cs).1.chars.reverse ++ before).reverse ++ _) _ _
        at hrest
      rwa [hfirst, List.reverse_append, List.reverse_reverse, List.append_assoc,
        ← List.flatMap_cons] at hrest

/-- **A segment that is a reference has the form of one.** -/
theorem isReference_of_segments {cs : List Char} {l r : List Segment} {name : List Char}
    (h : segments cs = l ++ .reference name :: r) :
    IsReference (l.flatMap Segment.chars) name (r.flatMap Segment.chars) :=
  isReference_of_segmentsAfter [] cs l h

/-! ### Plain characters -/

/-- **Characters of which none but markers are special:** no quotes, no dollars, no comments. Behind
such characters it can be said without a lexer what is a reference. -/
structure IsPlain (cs : List Char) : Prop where
  /-- No literal, identifier or body is quoted. -/
  unquoted : ∀ c ∈ cs, c ≠ '\x27' ∧ c ≠ '"' ∧ c ≠ '$'
  /-- No comment to the end of a line begins. -/
  no_line_comment : ¬ ['-', '-'] <:+: cs
  /-- No comment in marks begins. -/
  no_block_comment : ¬ ['/', '*'] <:+: cs

instance (cs : List Char) : Decidable (IsPlain cs) :=
  decidable_of_iff
    ((cs.all fun c => c ≠ '\x27' && c ≠ '"' && c ≠ '$') = true ∧ ¬ ['-', '-'] <:+: cs ∧
      ¬ ['/', '*'] <:+: cs)
    ⟨fun ⟨hchars, hline, hblock⟩ => ⟨by simpa [and_assoc] using hchars, hline, hblock⟩,
      fun h => ⟨by simpa [and_assoc] using h.unquoted, h.no_line_comment, h.no_block_comment⟩⟩

theorem IsPlain.of_append {u v : List Char} (h : IsPlain (u ++ v)) : IsPlain v := by
  have hsub : v <:+: u ++ v := (List.suffix_append u v).isInfix
  refine ⟨fun c hc => h.unquoted c (List.mem_append_right u hc), ?_, ?_⟩
  · exact fun hline => h.no_line_comment (hline.trans hsub)
  · exact fun hblock => h.no_block_comment (hblock.trans hsub)

theorem not_head_of_not_infix {c d : Char} {cs : List Char} (h : ¬ [c, d] <:+: c :: cs) :
    cs.head? ≠ some d := by
  intro hd
  obtain ⟨rest, rfl⟩ := List.head?_eq_some_iff.1 hd
  exact h (List.prefix_append [c, d] rest).isInfix

theorem marker_ne_opener : marker ≠ '-' ∧ marker ≠ '/' := by decide

/-- Two markers are one segment. -/
theorem splitSegment_pair (before cs : List Char) :
    splitSegment before marker (marker :: cs) = (.verbatim [marker, marker], cs) := by
  rw [splitSegment, if_neg (by decide), if_neg (by decide),
    if_neg fun h => marker_ne_opener.1 (of_decide_eq_true (Bool.and_eq_true_iff.1 h).1),
    if_neg fun h => marker_ne_opener.2 (of_decide_eq_true (Bool.and_eq_true_iff.1 h).1),
    if_pos (by simp)]
  rfl

/-- A marker before a name and behind none begins a reference. -/
theorem splitSegment_reference {before cs : List Char} (hstart : cs.head?.any isNameStart = true)
    (hbefore : followsName before = false) :
    splitSegment before marker cs = (.reference (cs.takeWhile isNameChar),
      cs.dropWhile isNameChar) := by
  have hnext : cs.head? ≠ some marker := by
    intro hd
    rw [hd] at hstart
    exact absurd hstart (by decide)
  rw [splitSegment, if_neg (by decide), if_neg (by decide),
    if_neg fun h => marker_ne_opener.1 (of_decide_eq_true (Bool.and_eq_true_iff.1 h).1),
    if_neg fun h => marker_ne_opener.2 (of_decide_eq_true (Bool.and_eq_true_iff.1 h).1),
    if_neg (by simp [hnext]), if_pos (by simp [hstart, hbefore])]

/-- **A character with which nothing begins,** between `before` and `cs`. Each clause excludes one
kind of segment, so the character is one by itself. -/
structure OpensNothing (before : List Char) (c : Char) (cs : List Char) : Prop where
  /-- It is no quote. -/
  unquoted : c ≠ '\x27' ∧ c ≠ '"'
  /-- A dollar belongs to a name or stands before no tag. -/
  dollar : c = '$' → followsName before = true ∨ dollarTag? cs = none
  /-- A dash has no second behind it. -/
  line : c = '-' → cs.head? ≠ some '-'
  /-- A slash has no star behind it. -/
  block : c = '/' → cs.head? ≠ some '*'
  /-- A marker has no second behind it. -/
  pair : c = marker → cs.head? ≠ some marker
  /-- A marker before a name belongs to another. -/
  reference : c = marker → cs.head?.any isNameStart = true → followsName before = true

/-- Such a character is a segment of its own. -/
theorem splitSegment_single {before : List Char} {c : Char} {cs : List Char}
    (h : OpensNothing before c cs) : splitSegment before c cs = (.verbatim [c], cs) := by
  -- each of the ways to begin something longer is excluded
  obtain ⟨hquote, hdouble⟩ := h.unquoted
  have hline : ¬ (c = '-' && decide (cs.head? = some '-')) = true := by
    rw [Bool.and_eq_true, decide_eq_true_eq, decide_eq_true_eq]
    exact fun hc => h.line hc.1 hc.2
  have hblock : ¬ (c = '/' && decide (cs.head? = some '*')) = true := by
    rw [Bool.and_eq_true, decide_eq_true_eq, decide_eq_true_eq]
    exact fun hc => h.block hc.1 hc.2
  have hpair : ¬ (c = marker && decide (cs.head? = some marker)) = true := by
    rw [Bool.and_eq_true, decide_eq_true_eq, decide_eq_true_eq]
    exact fun hc => h.pair hc.1 hc.2
  have href : ¬ (c = marker && cs.head?.any isNameStart && !followsName before) = true := by
    rw [Bool.and_eq_true, Bool.and_eq_true, decide_eq_true_eq, Bool.not_eq_true']
    rintro ⟨⟨hc, hstart⟩, hbefore⟩
    rw [h.reference hc hstart] at hbefore
    cases hbefore
  -- so none of the branches before the last is taken, but for a dollar without a tag
  rw [splitSegment, if_neg (by simp [hquote, hdouble]), if_neg hline, if_neg hblock, if_neg hpair,
    if_neg href]
  split
  · next hdollar =>
    have hnone : (if followsName before then none else dollarTag? cs) = none := by
      split
      · rfl
      · next hbefore => exact (h.dollar hdollar).resolve_left hbefore
    rw [hnone]
  · rfl

/-- In front of a marker, plain characters open nothing but references and pairs of markers. -/
theorem IsPlain.opensNothing {before : List Char} {c : Char} {u v : List Char}
    (h : IsPlain (c :: u)) (hpair : c = marker → u ≠ [] ∧ u.head? ≠ some marker)
    (href : c = marker → u.head?.any isNameStart = true → followsName before = true) :
    OpensNothing before c (u ++ marker :: v) := by
  obtain ⟨hquote, hdouble, hdollar⟩ := h.unquoted c List.mem_cons_self
  -- what follows the character is plain too, or is the marker itself
  refine ⟨⟨hquote, hdouble⟩, fun hc => absurd hc hdollar, ?_, ?_, ?_, ?_⟩
  · rintro rfl hd
    cases u with
    | nil => exact absurd (Option.some.inj hd) (by decide)
    | cons d u => exact not_head_of_not_infix h.no_line_comment hd
  · rintro rfl hd
    cases u with
    | nil => exact absurd (Option.some.inj hd) (by decide)
    | cons d u => exact not_head_of_not_infix h.no_block_comment hd
  · intro hc hd
    cases u with
    | nil => exact (hpair hc).1 rfl
    | cons d u => exact (hpair hc).2 hd
  · intro hc hstart
    cases u with
    | nil => exact absurd rfl (hpair hc).1
    | cons d u => exact href hc hstart

/-! ### Nothing is missed -/

/-- How many markers stand at the end. An even number of them are pairs, and the next marker is free
to begin a reference. -/
def trailingMarkers (cs : List Char) : Nat :=
  (cs.reverse.takeWhile (· = marker)).length

theorem trailingMarkers_append {w : List Char} (u : List Char)
    (h : w.getLast?.any (· = marker) = false) : trailingMarkers (w ++ u) = trailingMarkers u := by
  have hw : w.reverse.takeWhile (· = marker) = [] := by
    rw [← List.head?_reverse] at h
    cases hr : w.reverse with
    | nil => rfl
    | cons c cs =>
      rw [hr] at h
      exact List.takeWhile_cons_of_neg (by simpa using h)
  rw [trailingMarkers, trailingMarkers, List.reverse_append, List.takeWhile_append]
  split
  · next hall => rw [hw, List.append_nil, hall]
  · rfl

theorem trailingMarkers_pair (u : List Char) :
    trailingMarkers (marker :: marker :: u) % 2 = trailingMarkers u % 2 := by
  have hpair : (marker :: marker :: u).reverse = u.reverse ++ [marker, marker] := by
    rw [List.reverse_cons, List.reverse_cons, List.append_assoc]
    rfl
  rw [trailingMarkers, trailingMarkers, hpair, List.takeWhile_append]
  split
  · next hall =>
    rw [List.length_append, hall]
    exact Nat.add_mod_right u.reverse.length 2
  · rfl

theorem isNameChar_marker : isNameChar marker = false := by decide

/-- A name that is as long as it can be is what is taken. -/
theorem takeWhile_isNameChar_append {name v : List Char} (h : ∀ c ∈ name, isNameChar c = true)
    (hv : v.head?.any isNameChar = false) :
    (name ++ v).takeWhile isNameChar = name ∧ (name ++ v).dropWhile isNameChar = v := by
  have hnil : v.takeWhile isNameChar = [] ∧ v.dropWhile isNameChar = v := by
    cases v with
    | nil => exact ⟨rfl, rfl⟩
    | cons c v =>
      change isNameChar c = false at hv
      exact ⟨List.takeWhile_cons_of_neg (by simp [hv]), List.dropWhile_cons_of_neg (by simp [hv])⟩
  refine ⟨?_, ?_⟩
  · rw [List.takeWhile_append_of_pos h, hnil.1, List.append_nil]
  · rw [List.dropWhile_append_of_pos h, hnil.2]

/-- A reference in front of a marker ends before it, and not in a marker. -/
theorem exists_splitSegment_reference {before v : List Char} {d : Char} (u : List Char)
    (hstart : isNameStart d = true) (hbefore : followsName before = false) :
    ∃ other w, other ++ w = d :: u ∧ (marker :: other).getLast?.any (· = marker) = false ∧
      splitSegment before marker (d :: u ++ marker :: v) =
        (.reference other, w ++ marker :: v) := by
  -- the name is as long as it can be, and the marker ends it at the latest
  have happend : (d :: u).takeWhile isNameChar ++ (d :: u).dropWhile isNameChar = d :: u :=
    List.takeWhile_append_dropWhile
  have hchars := List.all_eq_true.1 (List.all_takeWhile (p := isNameChar) (l := d :: u))
  have hend := head?_dropWhile_any isNameChar (d :: u)
  generalize (d :: u).takeWhile isNameChar = other at happend hchars
  generalize (d :: u).dropWhile isNameChar = w at happend hend
  refine ⟨other, w, happend, ?_, ?_⟩
  · -- the name is not empty, and no character of a name is a marker
    cases other with
    | nil =>
      obtain rfl : w = d :: u := happend
      exact absurd (isNameChar_of_isNameStart hstart) (by simpa using hend)
    | cons e other =>
      rw [List.getLast?_cons_cons]
      cases hx : (e :: other).getLast? with
      | none => rfl
      | some x =>
        have hname := hchars x (List.mem_of_getLast? hx)
        refine decide_eq_false fun hmarker => ?_
        rw [hmarker, isNameChar_marker] at hname
        cases hname
  · have hrest : (w ++ marker :: v).head?.any isNameChar = false := by
      cases w with
      | nil => exact isNameChar_marker
      | cons e w => exact hend
    obtain ⟨htake, hdrop⟩ := takeWhile_isNameChar_append hchars hrest
    rw [← List.append_assoc, happend] at htake hdrop
    have hcut : splitSegment before marker (d :: u ++ marker :: v) = _ :=
      splitSegment_reference hstart hbefore
    rwa [htake, hdrop] at hcut

/-- What has the form of a reference is cut off as one where it begins. -/
theorem splitSegment_of_isReference {before name v : List Char}
    (h : IsReference before.reverse name v) :
    splitSegment before marker (name ++ v) = (.reference name, v) := by
  obtain ⟨hname, hrest⟩ := takeWhile_isNameChar_append h.chars h.after
  have hstart : (name ++ v).head?.any isNameStart = true := by
    have hs := h.start
    cases name with
    | nil => cases hs
    | cons d name => exact hs
  have hbefore : followsName before = false := by
    rw [← List.reverse_reverse before, followsName_reverse]
    exact h.before
  rw [splitSegment_reference hstart hbefore, hname, hrest]

/-- **The first segment of plain characters** before a marker ends before the marker, and leaves an
even number of markers in front of it. -/
theorem exists_splitSegment_plain {before u v : List Char} {c : Char} (hplain : IsPlain (c :: u))
    (heven : trailingMarkers (c :: u) % 2 = 0) :
    ∃ s w, splitSegment before c (u ++ marker :: v) = (s, w ++ marker :: v) ∧
      s.chars ++ w = c :: u ∧ trailingMarkers w % 2 = 0 := by
  -- by the first two characters: alone, a pair, another reference, or a character by itself
  cases u with
  | nil =>
    -- the character is no marker, for there would be one only
    refine ⟨.verbatim [c], [], splitSegment_single (hplain.opensNothing ?_ ?_), rfl, rfl⟩
    · rintro rfl
      cases heven
    · rintro rfl
      cases heven
  | cons d u =>
    by_cases hc : c = marker
    · obtain rfl := hc
      by_cases hd : d = marker
      · obtain rfl := hd
        rw [trailingMarkers_pair] at heven
        exact ⟨_, u, splitSegment_pair before _, rfl, heven⟩
      by_cases hname : isNameStart d = true ∧ followsName before = false
      · -- another reference, whose name ends before the marker
        obtain ⟨hstart, hbefore⟩ := hname
        obtain ⟨other, w, hchars, hlast, hsplit⟩ :=
          exists_splitSegment_reference (v := v) u hstart hbefore
        rw [← hchars, ← List.cons_append, trailingMarkers_append w hlast] at heven
        exact ⟨.reference other, w, hsplit, by rw [← hchars]; rfl, heven⟩
      · -- a marker without a name
        have heven' : trailingMarkers (d :: u) % 2 = 0 := by
          have hpair : (marker :: d :: u) = [marker, d] ++ u := rfl
          have hsingle : d :: u = [d] ++ u := rfl
          rw [hpair, trailingMarkers_append u (by simpa using hd)] at heven
          rwa [hsingle, trailingMarkers_append u (by simpa using hd)]
        refine ⟨.verbatim [marker], d :: u, splitSegment_single (hplain.opensNothing ?_ ?_), rfl,
          heven'⟩
        · intro _
          exact ⟨List.cons_ne_nil d u, fun hhead => hd (Option.some.inj hhead)⟩
        · intro _ hstart
          rw [Classical.not_and_iff_not_or_not] at hname
          rcases hname with hname | hname
          · exact absurd hstart hname
          · exact Bool.of_not_eq_false hname
    · -- any other character, which the count of markers passes over
      rw [← List.singleton_append, trailingMarkers_append _ (by simpa using hc)] at heven
      refine ⟨.verbatim [c], d :: u, splitSegment_single (hplain.opensNothing ?_ ?_), rfl, heven⟩
      · exact fun h => absurd h hc
      · exact fun h => absurd h hc

/-- **What has the form of a reference behind plain characters is cut off as one.** -/
theorem exists_reference_segmentsAfter {name v : List Char} (before cs : List Char) :
    ∀ u, cs = u ++ marker :: (name ++ v) → IsPlain u →
      IsReference (before.reverse ++ u) name v → trailingMarkers u % 2 = 0 →
      ∃ l r, segmentsAfter before cs = l ++ .reference name :: r ∧ l.flatMap Segment.chars = u := by
  -- segment by segment up to the reference, with an even number of markers left each time
  induction before, cs using segmentsAfter.induct with
  | case1 before =>
    intro u h
    cases u <;> cases h
  | case2 before c cs next ih =>
    intro u hcs hplain href heven
    cases u with
    | nil =>
      -- the reference stands here
      rw [List.nil_append, List.cons.injEq] at hcs
      obtain ⟨rfl, rfl⟩ := hcs
      rw [List.append_nil] at href
      refine ⟨[], segmentsAfter ((marker :: name).reverse ++ before) v, ?_, rfl⟩
      rw [segmentsAfter_cons, splitSegment_of_isReference href]
      rfl
    | cons d u =>
      -- it stands behind the first segment
      rw [List.cons_append, List.cons.injEq] at hcs
      obtain ⟨rfl, rfl⟩ := hcs
      obtain ⟨s, w, hsplit, hchars, hw⟩ : ∃ s w, splitSegment before c _ = _ ∧ _ :=
        exists_splitSegment_plain hplain heven
      have hnext : next = (s, w ++ marker :: (name ++ v)) := hsplit
      have hplain' : IsPlain w := by
        rw [← hchars] at hplain
        exact hplain.of_append
      have href' : IsReference ((next.1.chars.reverse ++ before).reverse ++ w) name v := by
        rw [List.reverse_append, List.reverse_reverse, List.append_assoc, hnext, hchars]
        exact href
      obtain ⟨l, r, hl, hlc⟩ := ih w (by rw [hnext]) hplain' href' hw
      refine ⟨s :: l, r, ?_, ?_⟩
      · rw [segmentsAfter_cons, hsplit, List.cons_append, ← hl, hnext]
      · rw [List.flatMap_cons, hlc, hchars]

end QueryGateway.Sql
