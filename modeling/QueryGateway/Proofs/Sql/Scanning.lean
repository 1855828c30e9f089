import Mathlib.Logic.Relation
import QueryGateway.Proofs.Sql.Pieces
import QueryGateway.Proofs.Sql.Slots
import QueryGateway.Proofs.Sql.Spans

/-!
# Scanning

A scan of a text is a run of rounds from its start. Between two rounds it stands between two
segments (`Scan.IsAt`): what it has written, together with the numbered segments that are still to
come, is the statement, and its tables say which parameters have numbers. A round keeps that,
without a fault, and moves on by one segment (`Scan.IsAt.exists_round`); so the scan does not fail,
ends, and ends with the statement of the text (`scan_is_safe`).

That indices are in the table of values depends on the slots alone: a bound command has one for each
parameter (`length_of_bindSlots`).
-/

namespace QueryGateway

/-! ### One slot for each parameter -/

namespace CommandDescriptor

theorem length_supply (d : CommandDescriptor) (held : List BoundValue) (e : String × RawValue) :
    (d.supply held e).length = held.length := by
  rw [supply]
  split
  · rfl
  · split
    · exact List.length_modify _ _ _
    · rfl

theorem length_bind_values (d : CommandDescriptor) (vs : ParameterValues) :
    (d.bind vs).values.length = d.parameters.length := by
  have hfold : ∀ (es : List (String × RawValue)) (held : List BoundValue),
      (es.foldl d.supply held).length = held.length := by
    intro es
    induction es with
    | nil => exact fun held => rfl
    | cons e es ih => exact fun held => (ih _).trans (d.length_supply held e)
  exact (hfold vs.entries _).trans (List.length_map _)

theorem position?_lt {d : CommandDescriptor} {name : String} {i : Nat}
    (h : d.position? name = some i) : i < d.parameters.length := by
  obtain ⟨hi, -⟩ := List.findIdx?_eq_some_iff_getElem.1 h
  exact hi

end CommandDescriptor

namespace Sql

theorem length_of_bindSlots {d : CommandDescriptor} {vs : ParameterValues}
    {slots : List (Option BindValue)} (h : bindSlots (d.bind vs).slots = .ok slots) :
    slots.length = d.parameters.length := by
  have hvalues := d.length_bind_values vs
  have hzip : (d.bind vs).slots.length = min d.parameters.length (d.bind vs).values.length :=
    List.length_zip
  rw [eq_map_slotOf_of_bindSlots h, List.length_map, hzip, hvalues, Nat.min_self]

variable {d : CommandDescriptor} {slots : List (Option BindValue)} {order : List Nat} {s : Scan}

/-! ### Numbers -/

/-- The place of a parameter that comes last. -/
theorem idxOf?_concat {i : Nat} (hi : i ∉ order) (j : Nat) :
    (order ++ [i]).idxOf? j = if j = i then some order.length else order.idxOf? j := by
  by_cases hj : j = i
  · subst hj
    rw [if_pos rfl, idxOf?_of_mem (by simp), List.idxOf_append, if_neg hi, List.idxOf_cons_self,
      Nat.zero_add]
  · rw [if_neg hj]
    by_cases hmem : j ∈ order
    · rw [idxOf?_of_mem hmem, idxOf?_of_mem (List.mem_append_left [i] hmem), List.idxOf_append,
        if_pos hmem]
    · rw [List.idxOf?_eq_none_iff.2 hmem, List.idxOf?_eq_none_iff.2 (by simp [hmem, hj])]

namespace Scan

/-- **The tables of a scan** in which parameters have got numbers in some order. It is the part of
the invariant that speaks of values, apart from where the scan stands. -/
structure HasNumbered (slots : List (Option BindValue)) (order : List Nat) (s : Scan) : Prop where
  /-- The parameters with numbers have given up their values, the others keep theirs. -/
  values : ∀ i, s.values[i]? = if i ∈ order then slots[i]?.map fun _ => none else slots[i]?
  /-- The number of a parameter is its place in the order. -/
  numbers : ∀ i, s.numbers.lookup i = (order.idxOf? i).map (· + 1)
  /-- The values stand in the order of the numbers. -/
  params : s.params = order.filterMap fun i => slots[i]?.join
  /-- Only parameters that travel have numbers. -/
  travels : ∀ i ∈ order, slots[i]?.join.isSome = true

theorem hasNumbered_start (slots : List (Option BindValue)) : (start slots).HasNumbered slots [] :=
  ⟨fun _ => rfl, fun _ => rfl, rfl, fun _ h => absurd h List.not_mem_nil⟩

theorem HasNumbered.length_params (h : s.HasNumbered slots order) :
    s.params.length = order.length := by
  rw [h.params, List.length_filterMap_eq_countP, List.countP_eq_length.2 h.travels]

/-- **Whether a parameter can be numbered** depends on the slots alone. -/
theorem HasNumbered.canNumber (h : s.HasNumbered slots order) {i : Nat} (hi : i < slots.length) :
    s.canNumber i = .ok slots[i]?.join.isSome := by
  obtain ⟨slot, hslot⟩ : ∃ slot, slots[i]? = some slot := ⟨_, List.getElem?_eq_getElem hi⟩
  have hvalue := h.values i
  rw [Scan.canNumber, entryAt, h.numbers]
  by_cases hmem : i ∈ order
  · rw [if_pos hmem, hslot] at hvalue
    rw [hvalue, idxOf?_of_mem hmem, h.travels i hmem]
    rfl
  · rw [if_neg hmem, hslot] at hvalue
    rw [hvalue, List.idxOf?_eq_none_iff.2 hmem, hslot]
    exact congrArg Except.ok (Bool.or_false _)

/-- What is left after the value of a parameter is taken. -/
def give (s : Scan) (i : Nat) (v : BindValue) : Scan :=
  { s with
    values := s.values.set i none
    numbers := (i, s.params.length + 1) :: s.numbers
    params := s.params ++ [v] }

theorem HasNumbered.give (h : s.HasNumbered slots order) {i : Nat} {v : BindValue}
    (hnew : i ∉ order) (hv : slots[i]? = some (some v)) :
    (s.give i v).HasNumbered slots (order ++ [i]) where
  values j := by
    -- the value was still in the table, so its index is one of the table's
    have hvalue := h.values i
    rw [if_neg hnew, hv] at hvalue
    obtain ⟨hi, -⟩ := List.getElem?_eq_some_iff.1 hvalue
    by_cases hj : j = i
    · subst hj
      rw [if_pos (by simp), hv]
      exact List.getElem?_set_self hi
    · have hset : (s.give i v).values[j]? = s.values[j]? := List.getElem?_set_ne (Ne.symm hj)
      have hmem : j ∈ order ++ [i] ↔ j ∈ order := by simp [hj]
      rw [hset, h.values, if_congr hmem rfl rfl]
  -- the new entry stands first, and the others keep their numbers
  numbers j := by
    have hcons : (s.give i v).numbers.lookup j =
        if j = i then some (s.params.length + 1) else s.numbers.lookup j := by
      rw [Scan.give, List.lookup_cons]
      by_cases hj : j = i
      · rw [if_pos hj, beq_iff_eq.2 hj]
      · rw [if_neg hj, beq_false_of_ne hj]
    rw [hcons, idxOf?_concat hnew, h.numbers, h.length_params]
    split <;> rfl
  -- the value goes behind those that have been given out
  params := by
    have hlast : [i].filterMap (fun j => slots[j]?.join) = [v] := by simp [hv]
    rw [List.filterMap_append, ← h.params, hlast]
    rfl
  travels j hj := by
    rcases List.mem_append.1 hj with hj | hj
    · exact h.travels j hj
    · obtain rfl := List.mem_singleton.1 hj
      rw [hv]
      rfl

/-- **A parameter gets its number,** and the tables stay right. -/
theorem HasNumbered.exists_number (h : s.HasNumbered slots order) {i : Nat}
    (hi : slots[i]?.join.isSome = true) :
    ∃ t, s.number i = .ok ((numberOf order i).1, t) ∧ t.HasNumbered slots (numberOf order i).2 ∧
      t.position = s.position ∧ t.out = s.out := by
  rw [Scan.number, h.numbers, numberOf]
  -- a parameter with a number keeps it, and a new one takes its value out of the table
  by_cases hmem : i ∈ order
  · rw [idxOf?_of_mem hmem]
    exact ⟨s, rfl, h, rfl, rfl⟩
  · obtain ⟨v, hv⟩ := Option.isSome_iff_exists.1 hi
    have hslot : slots[i]? = some (some v) := Option.join_eq_some_iff.1 hv
    have hvalue := h.values i
    rw [if_neg hmem, hslot] at hvalue
    rw [List.idxOf?_eq_none_iff.2 hmem, entryAt, hvalue, ← h.length_params]
    exact ⟨s.give i v, rfl, h.give hmem hslot, rfl, rfl⟩

/-! ### One round -/

/-- **Where a scan stands:** behind some characters and before others, with numbers for the
parameters in some order. What it has written is the beginning of the statement, and what is still
to come follows. -/
structure IsAt (d : CommandDescriptor) (slots : List (Option BindValue)) (before rest : List Char)
    (order : List Nat) (s : Scan) : Prop where
  /-- The characters make up the text. -/
  text : d.text.toList = before ++ rest
  /-- The position counts those before. -/
  position : s.position = before.length
  /-- The tables are right. -/
  tables : s.HasNumbered slots order
  /-- What is written and what is to come make up the statement. -/
  outcome : numberSegments (referent? d slots) [] (segments d.text.toList) =
    (s.out ++ (numberSegments (referent? d slots) order (segmentsAfter before.reverse rest)).1,
      (numberSegments (referent? d slots) order (segmentsAfter before.reverse rest)).2)

theorem isAt_start (d : CommandDescriptor) (slots : List (Option BindValue)) :
    IsAt d slots [] d.text.toList [] (start slots) :=
  ⟨rfl, rfl, hasNumbered_start slots, rfl⟩

/-- At the end of the text the statement is there. -/
theorem IsAt.statement_eq {before : List Char} (h : s.IsAt d slots before [] order) :
    s.position = d.text.toList.length ∧ s.statement = numberMarkers d slots := by
  have houtcome := h.outcome
  rw [segmentsAfter_nil, numberSegments, List.append_nil] at houtcome
  refine ⟨by rw [h.text, List.append_nil, h.position], ?_⟩
  rw [Scan.statement, numberMarkers, houtcome, h.tables.params]

variable {before cs rest : List Char} {c : Char} {segment : Segment}

theorem IsAt.text_eq (h : s.IsAt d slots before (c :: cs) order)
    (hsplit : splitSegment before.reverse c cs = (segment, rest)) :
    d.text.toList = before ++ (segment.chars ++ rest) := by
  have hchars := splitSegment_chars before.reverse c cs
  rw [hsplit] at hchars
  rw [h.text, hchars]

/-- Where a scan stands when it has passed a segment and written what becomes of it. -/
theorem IsAt.pass (h : s.IsAt d slots before (c :: cs) order)
    (hsplit : splitSegment before.reverse c cs = (segment, rest)) {written : List Char}
    {order' : List Nat} {t : Scan}
    (hwritten : ∀ segs, numberSegments (referent? d slots) order (segment :: segs) =
      (written ++ (numberSegments (referent? d slots) order' segs).1,
        (numberSegments (referent? d slots) order' segs).2))
    (hposition : t.position = before.length + segment.chars.length)
    (hout : t.out = s.out ++ written) (htables : t.HasNumbered slots order') :
    t.IsAt d slots (before ++ segment.chars) rest order' where
  text := by rw [h.text_eq hsplit, List.append_assoc]
  position := hposition.trans List.length_append.symm
  tables := htables
  -- what is written by the end is what has been written, then this segment, then the rest
  outcome := by
    rw [h.outcome, segmentsAfter_cons, hsplit, hwritten, hout, List.reverse_append,
      List.append_assoc]

/-- A segment that stays as it is is copied. -/
theorem IsAt.exists_copy (h : s.IsAt d slots before (c :: cs) order)
    (hsplit : splitSegment before.reverse c cs = (segment, rest))
    (hkept : ∀ segs, numberSegments (referent? d slots) order (segment :: segs) =
      (segment.chars ++ (numberSegments (referent? d slots) order segs).1,
        (numberSegments (referent? d slots) order segs).2)) :
    ∃ t, s.copy d.text.toList (before.length + segment.chars.length) = .ok t ∧
      t.IsAt d slots (before ++ segment.chars) rest order := by
  refine ⟨{ s with
    position := before.length + segment.chars.length
    out := s.out ++ segment.chars }, ?_, ?_⟩
  · rw [copy, h.position, h.text_eq hsplit, between_append]
    rfl
  · exact h.pass hsplit hkept rfl rfl
      ⟨h.tables.values, h.tables.numbers, h.tables.params, h.tables.travels⟩

/-- A reference is numbered or copied. -/
theorem IsAt.exists_refer (hslots : slots.length = d.parameters.length)
    (h : s.IsAt d slots before (c :: cs) order) {name : List Char}
    (hsplit : splitSegment before.reverse c cs = (.reference name, rest)) :
    ∃ t order', s.refer d d.text.toList (before.length + (name.length + 1)) = .ok t ∧
      t.IsAt d slots (before ++ marker :: name) rest order' := by
  -- the characters between the marker and the end of the span are the name
  have hname : between d.text.toList (before.length + 1) (before.length + (name.length + 1)) =
      .ok name := by
    have hbetween := between_append (before ++ [marker]) name rest
    rw [List.length_append, List.length_singleton, List.append_assoc, Nat.add_assoc,
      Nat.add_comm 1] at hbetween
    rw [h.text_eq hsplit]
    exact hbetween
  -- a name that refers to nothing that travels stays as it is
  have hcopy : referent? d slots name = none →
      ∃ t order', s.copy d.text.toList (before.length + (name.length + 1)) = .ok t ∧
        t.IsAt d slots (before ++ marker :: name) rest order' := by
    intro hnone
    obtain ⟨t, hcopy, ht⟩ := h.exists_copy hsplit fun segs => by
      rw [numberSegments, hnone]
      rfl
    exact ⟨t, order, hcopy, ht⟩
  rw [refer, h.position, hname, ok_bind]
  cases hi : d.position? (parameterKey (String.ofList name)) with
  | none => exact hcopy (by rw [referent?, hi]; rfl)
  | some i =>
    have hlt : i < slots.length := by
      rw [hslots]
      exact CommandDescriptor.position?_lt hi
    dsimp only
    rw [h.tables.canNumber hlt, ok_bind]
    -- a value that travels gives the reference a number; otherwise it stays
    by_cases htravels : slots[i]?.join.isSome = true
    · obtain ⟨t, hnumber, htables, hposition, hout⟩ := h.tables.exists_number htravels
      have hfound : referent? d slots name = some i := by
        rw [referent?, hi, Option.filter_some, if_pos htravels]
      rw [if_pos htravels, hnumber, ok_bind]
      refine ⟨_, (numberOf order i).2, rfl, h.pass hsplit ?_ rfl (congrArg (· ++ _) hout) ?_⟩
      · intro segs
        rw [numberSegments, hfound]
      · exact ⟨htables.values, htables.numbers, htables.params, htables.travels⟩
    · rw [if_neg htravels]
      exact hcopy (by rw [referent?, hi, Option.filter_some, if_neg htravels])

/-- **A round takes the next segment,** without a fault. -/
theorem IsAt.exists_round (hslots : slots.length = d.parameters.length)
    (h : s.IsAt d slots before (c :: cs) order) :
    ∃ t order', s.round d = .ok t ∧
      t.IsAt d slots (before ++ (splitSegment before.reverse c cs).1.chars)
        (splitSegment before.reverse c cs).2 order' := by
  -- the span that is taken is the segment that is cut off here
  have hspan : spanAt d.text.toList s.position =
      .ok ((splitSegment before.reverse c cs).1.span before.length) := by
    rw [h.text, h.position, spanAt_eq]
  rw [round, hspan, ok_bind]
  rcases hsplit : splitSegment before.reverse c cs with ⟨segment, rest⟩
  cases segment with
  | verbatim piece =>
    obtain ⟨t, hcopy, ht⟩ := h.exists_copy hsplit fun segs => rfl
    exact ⟨t, order, hcopy, ht⟩
  | reference name => exact h.exists_refer hslots hsplit

/-! ### The run -/

/-- **The loop:** as long as there are characters, there is a next round. At the end of the text
there is none. -/
def Next (d : CommandDescriptor) (s t : Scan) : Prop :=
  s.position < d.text.toList.length ∧ s.round d = .ok t

/-- Whether a scan gets there from the start, in any number of rounds. -/
def Reached (d : CommandDescriptor) (slots : List (Option BindValue)) (s : Scan) : Prop :=
  Relation.ReflTransGen (Next d) (start slots) s

variable {t u : Scan} {k : Nat}

theorem rightUnique_next (d : CommandDescriptor) : Relator.RightUnique (Next d) := by
  intro s t u ht hu
  exact Except.ok.inj (ht.2.symm.trans hu.2)

/-- A round takes the scan on: to behind the next segment, which is further on. -/
theorem IsAt.exists_next (hslots : slots.length = d.parameters.length)
    (h : s.IsAt d slots before rest order) (hlt : s.position < d.text.toList.length) :
    ∃ t before' rest' order', Next d s t ∧ t.IsAt d slots before' rest' order' ∧
      s.position < t.position := by
  cases rest with
  | nil => exact absurd h.statement_eq.1 (Nat.ne_of_lt hlt)
  | cons c cs =>
    obtain ⟨t, order', hround, ht⟩ := h.exists_round hslots
    refine ⟨t, _, _, _, ⟨hlt, hround⟩, ht, ?_⟩
    -- no segment is empty
    have hlength := congrArg List.length (splitSegment_chars before.reverse c cs)
    have hrest := splitSegment_length_le before.reverse c cs
    rw [List.length_append, List.length_cons] at hlength
    rw [h.position, ht.position, List.length_append]
    omega

theorem Reached.exists_isAt (hslots : slots.length = d.parameters.length)
    (h : Reached d slots s) : ∃ before rest order, s.IsAt d slots before rest order := by
  induction h with
  | refl => exact ⟨[], d.text.toList, [], isAt_start d slots⟩
  | tail hs hnext ih =>
    obtain ⟨before, rest, order, hat⟩ := ih
    obtain ⟨t, before', rest', order', hnext', ht, -⟩ := hat.exists_next hslots hnext.1
    obtain rfl := rightUnique_next d hnext hnext'
    exact ⟨before', rest', order', ht⟩

/-- **Every round goes on,** and not beyond the text. -/
theorem Reached.exists_next (hslots : slots.length = d.parameters.length) (h : Reached d slots s)
    (hlt : s.position < d.text.toList.length) :
    ∃ t, Next d s t ∧ s.position < t.position ∧ t.position ≤ d.text.toList.length := by
  obtain ⟨before, rest, order, hat⟩ := h.exists_isAt hslots
  obtain ⟨t, before', rest', order', hnext, ht, hless⟩ := hat.exists_next hslots hlt
  refine ⟨t, hnext, hless, ?_⟩
  rw [ht.text, List.length_append, ht.position]
  exact Nat.le_add_right _ _

theorem Reached.position_le (hslots : slots.length = d.parameters.length) (h : Reached d slots s)
    (hst : Relation.ReflTransGen (Next d) s t) : s.position ≤ t.position := by
  induction hst with
  | refl => exact Nat.le_refl _
  | tail hsu hnext ih =>
    have hu : Reached d slots _ := h.trans hsu
    obtain ⟨t, hnext', hless, -⟩ := hu.exists_next hslots hnext.1
    obtain rfl := rightUnique_next d hnext hnext'
    exact ih.trans hless.le

/-- **From everywhere the scan gets to the end,** where the statement is there. -/
theorem Reached.exists_end (hslots : slots.length = d.parameters.length) (h : Reached d slots s) :
    ∃ t, Relation.ReflTransGen (Next d) s t ∧ t.position = d.text.toList.length ∧
      t.statement = numberMarkers d slots := by
  -- on the number of characters that are still to come
  induction hk : d.text.toList.length - s.position using Nat.strong_induction_on generalizing s with
  | _ k ih =>
    by_cases hlt : s.position < d.text.toList.length
    · obtain ⟨t, hnext, hless, hle⟩ := h.exists_next hslots hlt
      obtain ⟨u, htu, hu⟩ := ih _ (by omega) (h.tail hnext) rfl
      exact ⟨u, .head hnext htu, hu⟩
    · -- at the end nothing is left, so the statement is there
      obtain ⟨before, rest, order, hat⟩ := h.exists_isAt hslots
      cases rest with
      | nil => exact ⟨s, .refl, hat.statement_eq⟩
      | cons c cs =>
        rw [hat.text, List.length_append, hat.position, List.length_cons] at hlt
        omega

/-- A character that has been passed was taken in some round. -/
theorem Reached.exists_taking (h : Reached d slots u) (hk : k < u.position) :
    ∃ s, Reached d slots s ∧ ∃ t, Next d s t ∧ s.position ≤ k ∧ k < t.position := by
  induction h with
  | refl => exact absurd hk (Nat.not_lt_zero k)
  | @tail s t hs hnext ih =>
    by_cases hbefore : k < s.position
    · exact ih hbefore
    · exact ⟨s, hs, t, hnext, Nat.le_of_not_lt hbefore, hk⟩

/-- Rounds that are run one after the other take no character twice. -/
theorem Reached.eq_of_taking (hslots : slots.length = d.parameters.length) (h : Reached d slots s)
    (hsu : Relation.ReflTransGen (Next d) s u) (hnext : Next d s t) (hk : k < t.position)
    (hu : u.position ≤ k) : s = u := by
  rcases hsu.cases_head with heq | ⟨t', hnext', htu⟩
  · exact heq
  · -- a later round begins where this one ended, or behind
    obtain rfl := rightUnique_next d hnext hnext'
    have ht : Reached d slots t := h.tail hnext
    have hle := ht.position_le hslots htu
    omega

end Scan

/-- **The scanner is safe.** In the scan of any text for a bound command every round ends without a
fault, moves on and stays within the text; every character is taken in exactly one round; and
wherever the scan has got to, it gets to the end of the text, with the statement. -/
theorem scan_is_safe {vs : ParameterValues} (h : bindSlots (d.bind vs).slots = .ok slots) :
    (∀ s, Scan.Reached d slots s → s.position < d.text.toList.length →
      ∃ t, s.round d = .ok t ∧ s.position < t.position ∧ t.position ≤ d.text.toList.length) ∧
    (∀ k < d.text.toList.length, ∃! s, Scan.Reached d slots s ∧
      ∃ t, s.Next d t ∧ s.position ≤ k ∧ k < t.position) ∧
    ∃ s, s.position = d.text.toList.length ∧ s.statement = numberMarkers d slots ∧
      ∀ t, Scan.Reached d slots t → Relation.ReflTransGen (Scan.Next d) t s := by
  have hslots := length_of_bindSlots h
  have hstart : Scan.Reached d slots (.start slots) := .refl
  obtain ⟨last, hlast, hposition, hstatement⟩ := hstart.exists_end hslots
  refine ⟨?_, ?_, last, hposition, hstatement, ?_⟩
  · -- a round from wherever the scan has got to
    intro s hs hlt
    obtain ⟨t, hnext, hless, hle⟩ := hs.exists_next hslots hlt
    exact ⟨t, hnext.2, hless, hle⟩
  · -- the round that takes a character exists, and is the only one
    intro k hk
    obtain ⟨s, hs, t, hnext, hsk, hkt⟩ :=
      Scan.Reached.exists_taking (u := last) hlast (hposition.symm ▸ hk)
    refine ⟨s, ⟨hs, t, hnext, hsk, hkt⟩, ?_⟩
    rintro s' ⟨hs', t', hnext', hsk', hkt'⟩
    -- one of the two rounds comes first
    rcases Relation.ReflTransGen.total_of_right_unique (Scan.rightUnique_next d) hs hs' with
      hthen | hthen
    · exact (hs.eq_of_taking hslots hthen hnext hkt hsk').symm
    · exact hs'.eq_of_taking hslots hthen hnext' hkt' hsk
  · intro t ht
    rcases Relation.ReflTransGen.total_of_right_unique (Scan.rightUnique_next d) ht hlast with
      hthen | hthen
    · exact hthen
    · -- behind the end there is no round
      rcases hthen.cases_head with rfl | ⟨u, hnext, -⟩
      · exact .refl
      · exact absurd hnext.1 (by rw [hposition]; exact Nat.lt_irrefl _)

/-! ### Nothing is closed -/

/-- A command in whose text a literal opens that a backslash keeps from being closed. -/
def unclosedDescriptor : CommandDescriptor where
  timeoutSeconds := 30
  kind := .text
  text := "@ID=@@x$1/-@id E'@id\\"
  parameters := [⟨"@id", .int, .input, false, none, none, none, none⟩]

/-- Its text ends with the backslash, and so does the scan. -/
theorem scan_is_safe_unclosed :
    let d := unclosedDescriptor
    let slots := [some (BindValue.value (.int 7))]
    bindSlots (d.bind (.ofList [("id", .text "7")])).slots = .ok slots ∧
      numberMarkers d slots = ⟨"$1=@@x$1/-$1 E'@id\\", [.value (.int 7)]⟩ ∧
      (∀ s, Scan.Reached d slots s → s.position < 21 →
        ∃ t, s.round d = .ok t ∧ s.position < t.position ∧ t.position ≤ 21) ∧
      (∀ k < 21, ∃! s, Scan.Reached d slots s ∧
        ∃ t, s.Next d t ∧ s.position ≤ k ∧ k < t.position) ∧
      ∃ s, s.position = 21 ∧ s.statement = numberMarkers d slots ∧
        ∀ t, Scan.Reached d slots t → Relation.ReflTransGen (Scan.Next d) t s := by
  have hslots : bindSlots (unclosedDescriptor.bind (.ofList [("id", .text "7")])).slots =
      .ok [some (.value (.int 7))] := except_eq_ok_of_toOption (by decide +kernel)
  exact ⟨hslots, by decide +kernel, scan_is_safe hslots⟩

end Sql

end QueryGateway
