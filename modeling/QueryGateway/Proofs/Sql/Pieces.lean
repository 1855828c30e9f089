import QueryGateway.Proofs.Sql.References
import QueryGateway.Sql.Statement

/-!
# Pieces

What becomes of the segments of a text when references are numbered. `numberPieces` keeps, piece by
piece, what stood in the text beside what stands in the statement; `numberSegments_eq` says that it
is the same computation as `numberSegments`, which only keeps the outcome.

The state of the numbering is the list of the parameters that have numbers. It only ever grows at
its end, so a number that was given once stays right (`number_of_mem_numberPieces`), and in the end
it lists the referenced parameters in the order of their first references (`numberSegments_eq`).
-/

namespace QueryGateway.Sql

/-- **A piece of a text on its way into a statement.** It remembers what it was, so the text can be
had back from the pieces. -/
inductive Piece where
  /-- Characters that stay as they are. -/
  | kept (cs : List Char)
  /-- A reference to the parameter at an index, and the number that takes its place. -/
  | numbered (name : List Char) (index number : Nat)

namespace Piece

/-- What stands in the text. -/
def source : Piece → List Char
  | .kept cs => cs
  | .numbered name _ _ => marker :: name

/-- What stands in the statement. -/
def output : Piece → List Char
  | .kept cs => cs
  | .numbered _ _ n => placeholder n

/-- The parameter that is referred to. -/
def index? : Piece → Option Nat
  | .kept _ => none
  | .numbered _ i _ => some i

/-- **The referenced parameters,** each once, in the order of their first references. This is the
order of their numbers. -/
def referenced (pieces : List Piece) : List Nat :=
  (pieces.filterMap index?).eraseDups

end Piece

/-- The pieces of segments in which references are numbered. A reference to what does not travel is
kept as it is. -/
def numberPieces (index? : List Char → Option Nat) (order : List Nat) : List Segment → List Piece
  | [] => []
  | .verbatim cs :: rest => .kept cs :: numberPieces index? order rest
  | .reference name :: rest =>
    match index? name with
    | some i =>
      .numbered name i (numberOf order i).1 :: numberPieces index? (numberOf order i).2 rest
    | none => .kept (marker :: name) :: numberPieces index? order rest

variable {find : List Char → Option Nat} {order : List Nat}

/-! ### The parameters with numbers -/

/-- The index of an element is its first one, whichever way it is asked for. -/
theorem idxOf?_of_mem {i : Nat} (h : i ∈ order) : order.idxOf? i = some (order.idxOf i) := by
  induction order with
  | nil => cases h
  | cons j rest ih =>
    rw [List.idxOf?_cons, List.idxOf_cons]
    by_cases hj : (j == i) = true
    · rw [if_pos hj, hj]
      rfl
    · have hmem : i ∈ rest := by
        rcases List.mem_cons.1 h with rfl | h
        · exact absurd (beq_self_eq_true i) hj
        · exact h
      rw [if_neg hj, Bool.of_not_eq_true hj, ih hmem]
      rfl

/-- A parameter that has no number yet comes last. -/
theorem numberOf_order (order : List Nat) (i : Nat) :
    (numberOf order i).2 = if i ∈ order then order else order ++ [i] := by
  rw [numberOf]
  by_cases h : i ∈ order
  · rw [idxOf?_of_mem h, if_pos h]
  · rw [List.idxOf?_eq_none_iff.2 h, if_neg h]

theorem mem_numberOf_order (order : List Nat) (i : Nat) : i ∈ (numberOf order i).2 := by
  rw [numberOf_order]
  split
  · next h => exact h
  · exact List.mem_append_right order (List.mem_singleton_self i)

/-- A number is a place in the order. -/
theorem numberOf_number (order : List Nat) (i : Nat) :
    (numberOf order i).1 = (numberOf order i).2.idxOf i + 1 := by
  rw [numberOf_order, numberOf]
  by_cases h : i ∈ order
  · rw [idxOf?_of_mem h, if_pos h]
  · rw [List.idxOf?_eq_none_iff.2 h, if_neg h, List.idxOf_append, if_neg h, List.idxOf_cons_self,
      Nat.zero_add]

/-- The parameters with numbers after references to parameters. -/
def orderAfter (order indices : List Nat) : List Nat :=
  indices.foldl (fun order i => (numberOf order i).2) order

theorem orderAfter_cons (order : List Nat) (i : Nat) (rest : List Nat) :
    orderAfter order (i :: rest) = orderAfter (numberOf order i).2 rest := rfl

/-- Numbers that were given stay. -/
theorem prefix_orderAfter (order indices : List Nat) : order <+: orderAfter order indices := by
  induction indices generalizing order with
  | nil => exact List.prefix_rfl
  | cons i rest ih =>
    have hstep : order <+: (numberOf order i).2 := by
      rw [numberOf_order]
      split
      · exact List.prefix_rfl
      · exact List.prefix_append order [i]
    rw [orderAfter_cons]
    exact hstep.trans (ih (numberOf order i).2)

/-- A parameter gets a number once, so the order has none twice. -/
theorem nodup_orderAfter (indices : List Nat) (h : order.Nodup) :
    (orderAfter order indices).Nodup := by
  induction indices generalizing order with
  | nil => exact h
  | cons i rest ih =>
    rw [orderAfter_cons]
    apply ih
    -- a new one goes to the end, where it differs from all before
    rw [numberOf_order]
    split
    · exact h
    · next hnew =>
      rw [List.nodup_append]
      refine ⟨h, List.pairwise_singleton _ _, ?_⟩
      intro a ha b hb hab
      rw [List.mem_singleton] at hb
      rw [hab, hb] at ha
      exact hnew ha

theorem eraseDups_of_nodup (h : order.Nodup) : order.eraseDups = order := by
  induction order with
  | nil => rfl
  | cons i rest ih =>
    obtain ⟨hnew, hrest⟩ := List.nodup_cons.1 h
    have hkeep : rest.filter (fun j => !j == i) = rest := by
      refine List.filter_eq_self.2 fun j hj => ?_
      have hne : j ≠ i := fun hji => hnew (hji ▸ hj)
      simpa using hne
    rw [List.eraseDups_cons, hkeep, ih hrest]

/-- **The order of the numbers is that of the first references.** -/
theorem orderAfter_eq (indices : List Nat) (h : order.Nodup) :
    orderAfter order indices = (order ++ indices).eraseDups := by
  induction indices generalizing order with
  | nil =>
    rw [List.append_nil, eraseDups_of_nodup h]
    rfl
  | cons i rest ih =>
    have hnodup : (numberOf order i).2.Nodup := nodup_orderAfter [i] h
    rw [orderAfter_cons, ih hnodup, numberOf_order]
    -- a parameter with a number drops out on the right, a new one moves into the order
    by_cases hi : i ∈ order
    · rw [if_pos hi, List.eraseDups_append, List.eraseDups_append, List.cons_removeAll,
        if_neg (by simpa using hi)]
    · rw [if_neg hi, List.append_assoc, List.singleton_append]

/-! ### Pieces and segments -/

/-- **The pieces hold all that numbering yields.** -/
theorem numberSegments_eq (find : List Char → Option Nat) (order : List Nat)
    (segs : List Segment) :
    numberSegments find order segs =
      ((numberPieces find order segs).flatMap Piece.output,
        orderAfter order ((numberPieces find order segs).filterMap Piece.index?)) := by
  induction segs generalizing order with
  | nil => rfl
  | cons s rest ih =>
    -- only a reference to a parameter that travels changes what is written and what is counted
    cases s with
    | verbatim cs =>
      rw [numberSegments, ih]
      rfl
    | reference name =>
      rw [numberSegments, numberPieces]
      cases find name with
      | none =>
        simp only [ih]
        rfl
      | some i =>
        simp only [ih]
        rfl

/-- Piece by piece, the sources are the segments. -/
theorem numberPieces_source (find : List Char → Option Nat) (order : List Nat)
    (segs : List Segment) :
    (numberPieces find order segs).map Piece.source = segs.map Segment.chars := by
  induction segs generalizing order with
  | nil => rfl
  | cons s rest ih =>
    cases s with
    | verbatim cs => exact congrArg (cs :: ·) (ih order)
    | reference name =>
      rw [numberPieces]
      cases find name with
      | none => exact congrArg ((marker :: name) :: ·) (ih order)
      | some i => exact congrArg ((marker :: name) :: ·) (ih (numberOf order i).2)

theorem numberPieces_chars (find : List Char → Option Nat) (order : List Nat)
    (segs : List Segment) :
    (numberPieces find order segs).flatMap Piece.source = segs.flatMap Segment.chars := by
  rw [List.flatMap_def, numberPieces_source, ← List.flatMap_def]

/-- The pieces of the segments of some characters make these up. -/
theorem numberPieces_segments (find : List Char → Option Nat) (cs : List Char) :
    (numberPieces find [] (segments cs)).flatMap Piece.source = cs := by
  rw [numberPieces_chars]
  exact segmentsAfter_chars [] cs

/-- The pieces of one more segment. -/
theorem numberPieces_cons (find : List Char → Option Nat) (order : List Nat) (s : Segment)
    (rest : List Segment) :
    (∃ cs, numberPieces find order (s :: rest) = .kept cs :: numberPieces find order rest) ∨
      ∃ name i, s = .reference name ∧ find name = some i ∧
        numberPieces find order (s :: rest) =
          .numbered name i (numberOf order i).1 :: numberPieces find (numberOf order i).2 rest := by
  cases s with
  | verbatim cs => exact Or.inl ⟨cs, rfl⟩
  | reference name =>
    rw [numberPieces]
    cases hi : find name with
    | none => exact Or.inl ⟨marker :: name, rfl⟩
    | some i => exact Or.inr ⟨name, i, rfl, hi, rfl⟩

/-- A numbered piece stands where a reference to its parameter stood. -/
theorem numberPieces_split {segs : List Segment} {l r : List Piece} {name : List Char} {i n : Nat}
    (h : numberPieces find order segs = l ++ .numbered name i n :: r) :
    ∃ l' r', segs = l' ++ .reference name :: r' ∧ find name = some i ∧
      l.map Piece.source = l'.map Segment.chars ∧ r.map Piece.source = r'.map Segment.chars := by
  -- on the segments; the sources need no induction of their own, they are those of all pieces
  induction segs generalizing order l with
  | nil => cases l <;> cases h
  | cons s rest ih =>
    have hsource := numberPieces_source find order (s :: rest)
    rw [h, List.map_append, List.map_cons, List.map_cons] at hsource
    cases l with
    -- the first piece is this segment's, so the segment is a reference that refers
    | nil =>
      rcases numberPieces_cons find order s rest with ⟨cs, hcons⟩ | ⟨name', i', rfl, hi, hcons⟩
      · rw [hcons] at h
        cases h
      · rw [hcons, List.nil_append, List.cons.injEq] at h
        cases h.1
        exact ⟨[], rest, rfl, hi, rfl, (List.cons.inj hsource).2⟩
    | cons piece l =>
      -- the piece stands further on, whatever this segment became
      obtain ⟨hfirst, -⟩ := List.cons.inj hsource
      have hrest : ∃ order', numberPieces find order' rest = l ++ .numbered name i n :: r := by
        rcases numberPieces_cons find order s rest with ⟨cs, hcons⟩ | ⟨name', i', -, -, hcons⟩
        · rw [hcons] at h
          exact ⟨_, (List.cons.inj h).2⟩
        · rw [hcons] at h
          exact ⟨_, (List.cons.inj h).2⟩
      obtain ⟨order', hrest⟩ := hrest
      obtain ⟨l', r', hsegs, hi, hl, hr⟩ := ih hrest
      refine ⟨s :: l', r', ?_, hi, ?_, hr⟩
      · rw [hsegs, List.cons_append]
      · rw [List.map_cons, List.map_cons, hl]
        exact congrArg (· :: _) hfirst

/-- Pieces are numbered one after the other. -/
theorem exists_numberPieces_append (find : List Char → Option Nat) (order : List Nat)
    (l r : List Segment) :
    ∃ order', numberPieces find order (l ++ r) =
      numberPieces find order l ++ numberPieces find order' r := by
  induction l generalizing order with
  | nil => exact ⟨order, rfl⟩
  | cons s l ih =>
    -- the order grows with each reference that is numbered, so the induction is over all orders
    cases s with
    | verbatim cs =>
      obtain ⟨order', hl⟩ := ih order
      refine ⟨order', ?_⟩
      rw [List.cons_append, numberPieces, hl]
      rfl
    | reference name =>
      rw [List.cons_append, numberPieces, numberPieces]
      cases find name with
      | none =>
        obtain ⟨order', hl⟩ := ih order
        exact ⟨order', congrArg (Piece.kept (marker :: name) :: ·) hl⟩
      | some i =>
        obtain ⟨order', hl⟩ := ih (numberOf order i).2
        exact ⟨order', congrArg (Piece.numbered name i (numberOf order i).1 :: ·) hl⟩

/-- A reference to a parameter is a numbered piece. -/
theorem exists_numberPieces_split (order : List Nat) (l r : List Segment) {name : List Char}
    {i : Nat} (h : find name = some i) :
    ∃ l' n r', numberPieces find order (l ++ .reference name :: r) =
        l' ++ .numbered name i n :: r' ∧
      l'.flatMap Piece.source = l.flatMap Segment.chars := by
  obtain ⟨order', happend⟩ := exists_numberPieces_append find order l (.reference name :: r)
  refine ⟨numberPieces find order l, (numberOf order' i).1,
    numberPieces find (numberOf order' i).2 r, ?_, numberPieces_chars find order l⟩
  rw [happend, numberPieces, h]

/-- What is verbatim is kept. -/
theorem numberPieces_of_verbatim (find : List Char → Option Nat) (order : List Nat)
    {segs : List Segment} (h : ∀ s ∈ segs, s = .verbatim s.chars) :
    numberPieces find order segs = segs.map fun s => .kept s.chars := by
  induction segs with
  | nil => rfl
  | cons s segs ih =>
    rw [h s List.mem_cons_self, numberPieces, ih fun s' hs' => h s' (List.mem_cons_of_mem s hs')]
    rfl

/-- **A number is the place of its parameter in the final order.** -/
theorem number_of_mem_numberPieces {segs : List Segment} {name : List Char} {i n : Nat}
    (h : .numbered name i n ∈ numberPieces find order segs) :
    n = (orderAfter order ((numberPieces find order segs).filterMap Piece.index?)).idxOf i + 1 := by
  induction segs generalizing order with
  | nil => cases h
  | cons s rest ih =>
    rcases numberPieces_cons find order s rest with ⟨cs, hcons⟩ | ⟨name', i', -, -, hcons⟩
    · rw [hcons] at h ⊢
      -- it stands further on, behind what this segment became
      rcases List.mem_cons.1 h with h | h
      · cases h
      · exact ih h
    · rw [hcons] at h ⊢
      change n = (orderAfter (numberOf order i').2 _).idxOf i + 1
      rcases List.mem_cons.1 h with h | h
      · -- given here, and kept by all that follow
        cases h
        obtain ⟨later, hlater⟩ := prefix_orderAfter (numberOf order i).2
          ((numberPieces find (numberOf order i).2 rest).filterMap Piece.index?)
        rw [← hlater, List.idxOf_append, if_pos (mem_numberOf_order order i)]
        exact numberOf_number order i
      · exact ih h

/-! ### Numbers and parameters -/

theorem Piece.mem_referenced {pieces : List Piece} {i : Nat} :
    i ∈ referenced pieces ↔ ∃ name n, .numbered name i n ∈ pieces := by
  rw [referenced, List.mem_eraseDups, List.mem_filterMap]
  refine ⟨?_, ?_⟩
  · rintro ⟨piece, hmem, hi⟩
    cases piece with
    | kept cs => cases hi
    | numbered name j n =>
      obtain rfl : j = i := Option.some.inj hi
      exact ⟨name, n, hmem⟩
  · rintro ⟨name, n, hmem⟩
    exact ⟨.numbered name i n, hmem, rfl⟩

theorem Piece.nodup_referenced (pieces : List Piece) : (referenced pieces).Nodup := by
  have h := nodup_orderAfter (pieces.filterMap index?) List.nodup_nil
  rwa [orderAfter_eq _ List.nodup_nil, List.nil_append] at h

variable {segs : List Segment}

/-- Numbered from the start, a number is the place of its parameter among those referenced. -/
theorem number_eq_idxOf {name : List Char} {i n : Nat}
    (h : .numbered name i n ∈ numberPieces find [] segs) :
    i ∈ Piece.referenced (numberPieces find [] segs) ∧
      n = (Piece.referenced (numberPieces find [] segs)).idxOf i + 1 := by
  refine ⟨Piece.mem_referenced.2 ⟨name, n, h⟩, ?_⟩
  have hn := number_of_mem_numberPieces h
  rwa [orderAfter_eq _ List.nodup_nil, List.nil_append] at hn

/-- A number leads to its parameter. -/
theorem getElem?_referenced {name : List Char} {i n : Nat}
    (h : .numbered name i n ∈ numberPieces find [] segs) :
    1 ≤ n ∧ n ≤ (Piece.referenced (numberPieces find [] segs)).length ∧
      (Piece.referenced (numberPieces find [] segs))[n - 1]? = some i := by
  obtain ⟨hmem, rfl⟩ := number_eq_idxOf h
  have hlt := List.idxOf_lt_length_of_mem hmem
  refine ⟨Nat.le_add_left 1 _, hlt, ?_⟩
  rw [Nat.add_sub_cancel, List.getElem?_eq_getElem hlt, List.getElem_idxOf]

/-- **Equal numbers stand for one parameter.** -/
theorem number_eq_iff {name name' : List Char} {i i' n n' : Nat}
    (h : .numbered name i n ∈ numberPieces find [] segs)
    (h' : .numbered name' i' n' ∈ numberPieces find [] segs) : n = n' ↔ i = i' := by
  refine ⟨?_, ?_⟩
  · rintro rfl
    have hi := (getElem?_referenced h).2.2
    rw [(getElem?_referenced h').2.2] at hi
    exact (Option.some.inj hi).symm
  · rintro rfl
    rw [(number_eq_idxOf h).2, (number_eq_idxOf h').2]

/-- **No number is left out.** -/
theorem exists_number {k : Nat} (hpos : 1 ≤ k)
    (hle : k ≤ (Piece.referenced (numberPieces find [] segs)).length) :
    ∃ name i, .numbered name i k ∈ numberPieces find [] segs := by
  have hlt : k - 1 < (Piece.referenced (numberPieces find [] segs)).length := by omega
  obtain ⟨name, n, hmem⟩ := Piece.mem_referenced.1 (List.getElem_mem hlt)
  have hn : n = k := by
    rw [(number_eq_idxOf hmem).2, (Piece.nodup_referenced _).idxOf_getElem]
    omega
  rw [hn] at hmem
  exact ⟨name, _, hmem⟩

end QueryGateway.Sql
