import QueryGateway.Proofs.Sql.Pieces
import QueryGateway.Proofs.Sql.References
import QueryGateway.Proofs.Sql.Slots

/-!
# Numbered statements

What the statement of a text command is. `IsNumbering` says it by means of the pieces of the text:
what they are copied or replaced by, which parameters the numbers stand for, and which parameters
the statement carries. `statement_is_numbering` says that every command whose parameters have what
they need has such a statement, and that behind plain characters every reference to a parameter that
travels is replaced.

The facts about what stands around a reference come from `References`, those about the numbers from
`Pieces`. What is left to show here is which parameter a name refers to (`referent?_eq_some_iff`).
-/

namespace QueryGateway

open Text

namespace Sql

/-! ### The parameter of a name -/

/-- **The parameter of a name** is the one with its key, if that travels. -/
theorem referent?_eq_some_iff {b : BoundCommand} (hd : b.descriptor.IsWellFormed)
    (hlen : b.values.length = b.descriptor.parameters.length)
    (hsup : ∀ slot ∈ b.slots, IsSupplied slot) {name : List Char} {i : Nat} :
    referent? b.descriptor (b.slots.map slotOf) name = some i ↔
      ∃ p, b.descriptor.parameters[i]? = some p ∧ p.direction.isBound = true ∧
        p.key = parameterKey (String.ofList name) := by
  -- a slot is filled if and only if its parameter travels
  have hfilled : ∀ p, b.descriptor.parameters[i]? = some p →
      (b.slots.map slotOf)[i]?.join.isSome = p.direction.isBound := by
    intro p hp
    obtain ⟨hi, rfl⟩ := List.getElem?_eq_some_iff.1 hp
    -- there are as many values as parameters, so the slot has both
    have hslot : b.slots[i]? = some (b.descriptor.parameters[i], b.values[i]) := by
      rw [BoundCommand.slots, List.getElem?_eq_getElem (by simp; omega), List.getElem_zip]
    rw [List.getElem?_map, hslot]
    exact slotOf_isSome (hsup _ (List.mem_of_getElem? hslot))
  -- the position is the one with the key, and the filter asks for a filled slot
  rw [referent?, Option.filter_eq_some_iff, CommandDescriptor.position?_eq_some_iff hd,
    parameterKey_parameterKey]
  refine ⟨?_, ?_⟩
  · rintro ⟨⟨p, hp, hkey⟩, hsome⟩
    exact ⟨p, hp, (hfilled p hp).symm.trans hsome, hkey⟩
  · rintro ⟨p, hp, hb, hkey⟩
    exact ⟨⟨p, hp, hkey⟩, (hfilled p hp).trans hb⟩

/-! ### Statements and their pieces -/

/-- **What a numbered statement is:** the pieces that it consists of, what each of them becomes, and
how the numbers go with the parameters. -/
structure IsNumbering (b : BoundCommand) (s : Statement) (pieces : List Piece) : Prop where
  /-- The pieces make up the text of the command. -/
  text : b.descriptor.text.toList = pieces.flatMap Piece.source
  /-- What becomes of them makes up the statement. -/
  sql : s.sql.toList = pieces.flatMap Piece.output
  /-- What is replaced has the form of a reference. -/
  reference : ∀ l name i n r, pieces = l ++ .numbered name i n :: r →
    IsReference (l.flatMap Piece.source) name (r.flatMap Piece.source)
  /-- It refers to a parameter that travels. -/
  parameter : ∀ name i n, .numbered name i n ∈ pieces →
    ∃ p, b.descriptor.parameters[i]? = some p ∧ p.direction.isBound = true ∧
      p.key = parameterKey (String.ofList name)
  /-- The statement carries what the referenced parameters hold, in the order of their first
  references. -/
  params : s.params.map some = (Piece.referenced pieces).map fun i => b.slots[i]?.bind slotOf
  /-- A number is the place of what its parameter holds, counted from one. -/
  number : ∀ name i n, .numbered name i n ∈ pieces →
    1 ≤ n ∧ n ≤ s.params.length ∧ (Piece.referenced pieces)[n - 1]? = some i
  /-- Two numbers are equal if and only if their parameters are. -/
  number_iff : ∀ name i n name' i' n', .numbered name i n ∈ pieces →
    .numbered name' i' n' ∈ pieces → (n = n' ↔ i = i')
  /-- Every number occurs. -/
  occurs : ∀ k, 1 ≤ k → k ≤ s.params.length → ∃ name i, .numbered name i k ∈ pieces
  /-- No digit stands directly behind a number. -/
  separate : ∀ l name i n r, pieces = l ++ .numbered name i n :: r →
    (r.flatMap Piece.output).head?.any Char.isDigit = false

/-- What is there for every element of a list makes up a list of the same length. -/
theorem map_some_filterMap {α β : Type} {f : α → Option β} {l : List α}
    (h : ∀ a ∈ l, (f a).isSome = true) : (l.filterMap f).map some = l.map f := by
  induction l with
  | nil => rfl
  | cons a l ih =>
    obtain ⟨b, hb⟩ := Option.isSome_iff_exists.1 (h a List.mem_cons_self)
    rw [List.filterMap_cons_some hb, List.map_cons, List.map_cons, hb,
      ih fun a' ha' => h a' (List.mem_cons_of_mem a ha')]

/-- What follows a reference in the statement begins as what follows it in the text, or with another
number. -/
theorem head?_output {pieces : List Piece} (hne : ∀ piece ∈ pieces, piece.source ≠ []) :
    (pieces.flatMap Piece.output).head? = (pieces.flatMap Piece.source).head? ∨
      (pieces.flatMap Piece.output).head? = some '$' := by
  cases pieces with
  | nil => exact Or.inl rfl
  | cons piece pieces =>
    cases piece with
    | kept cs =>
      cases cs with
      | nil => exact absurd rfl (hne (.kept []) List.mem_cons_self)
      | cons c cs => exact Or.inl rfl
    | numbered name i n => exact Or.inr rfl

theorem isNameChar_of_isDigit {c : Char} (h : c.isDigit = true) : isNameChar c = true := by
  rw [isNameChar, Char.isAlphanum, h]
  simp

/-- The statement, read off the pieces. -/
theorem numberMarkers_eq (d : CommandDescriptor) (slots : List (Option BindValue)) :
    numberMarkers d slots =
      let pieces := numberPieces (referent? d slots) [] (segments d.text.toList)
      ⟨String.ofList (pieces.flatMap Piece.output),
        (Piece.referenced pieces).filterMap fun i => slots[i]?.join⟩ := by
  rw [numberMarkers, numberSegments_eq, orderAfter_eq _ List.nodup_nil]
  rfl

/-- A piece of a text is never empty. -/
theorem source_ne_nil {find : List Char → Option Nat} {cs : List Char} {pieces : List Piece}
    (hpieces : numberPieces find [] (segments cs) = pieces) {piece : Piece} (h : piece ∈ pieces) :
    piece.source ≠ [] := by
  have hin : piece.source ∈ (segments cs).map Segment.chars := by
    rw [← numberPieces_source find [] (segments cs), hpieces]
    exact List.mem_map_of_mem h
  obtain ⟨s, hs, hchars⟩ := List.mem_map.1 hin
  rw [← hchars]
  exact segmentsAfter_chars_ne_nil [] cs s hs

/-- **What is replaced** is a reference to what its name is found to be. -/
theorem isReference_of_numberPieces {find : List Char → Option Nat} {cs name : List Char}
    {l r : List Piece} {i n : Nat}
    (h : numberPieces find [] (segments cs) = l ++ .numbered name i n :: r) :
    find name = some i ∧ IsReference (l.flatMap Piece.source) name (r.flatMap Piece.source) := by
  obtain ⟨l', r', hsegs, hi, hl, hr⟩ := numberPieces_split h
  rw [List.flatMap_def, List.flatMap_def, hl, hr]
  exact ⟨hi, isReference_of_segments hsegs⟩

/-- What replaces a reference ends before whatever follows. -/
theorem separate_of_isReference {l name : List Char} {r : List Piece}
    (h : IsReference l name (r.flatMap Piece.source)) (hne : ∀ piece ∈ r, piece.source ≠ []) :
    (r.flatMap Piece.output).head?.any Char.isDigit = false := by
  -- what follows is kept as it is, or is a number, which begins with its own sign
  rcases head?_output hne with hhead | hhead
  · have hafter := h.after
    rw [hhead]
    cases hc : (r.flatMap Piece.source).head? with
    | none => rfl
    | some c =>
      rw [hc] at hafter
      refine Bool.of_not_eq_true fun hdigit => ?_
      exact absurd (isNameChar_of_isDigit hdigit) (by simpa using hafter)
  · rw [hhead]
    rfl

/-- **The statement carries what the referenced parameters hold.** -/
theorem numberMarkers_params (d : CommandDescriptor) (slots : List (Option BindValue)) :
    (numberMarkers d slots).params.map some =
      (Piece.referenced (numberPieces (referent? d slots) [] (segments d.text.toList))).map
        fun i => slots[i]?.join := by
  rw [numberMarkers_eq]
  refine map_some_filterMap fun i hi => ?_
  obtain ⟨name, n, hn⟩ := Piece.mem_referenced.1 hi
  obtain ⟨l, r, hlr⟩ := List.append_of_mem hn
  have hfind := (isReference_of_numberPieces hlr).1
  rw [referent?, Option.filter_eq_some_iff] at hfind
  exact hfind.2

/-- **The pieces that the segments are numbered to are a numbering:** each of its facts is one about
pieces, with the parameters that are referred to counted once. -/
theorem numberMarkers_isNumbering {b : BoundCommand} (hd : b.descriptor.IsWellFormed)
    (hlen : b.values.length = b.descriptor.parameters.length)
    (hsup : ∀ slot ∈ b.slots, IsSupplied slot) :
    IsNumbering b (numberMarkers b.descriptor (b.slots.map slotOf))
      (numberPieces (referent? b.descriptor (b.slots.map slotOf)) []
        (segments b.descriptor.text.toList)) := by
  have hparams := numberMarkers_params b.descriptor (b.slots.map slotOf)
  have hcount := congrArg List.length hparams
  rw [List.length_map, List.length_map] at hcount
  -- what is sent is what the slots hold, in the order in which they are first referred to
  have hjoin : (fun i : Nat => (b.slots.map slotOf)[i]?.join) =
      fun i => b.slots[i]?.bind slotOf := by
    funext i
    rw [List.getElem?_map]
    cases b.slots[i]? <;> rfl
  rw [hjoin] at hparams
  refine ⟨?_, ?_, fun l name i n r h => (isReference_of_numberPieces h).2, ?_, hparams, ?_, ?_, ?_,
    ?_⟩
  · exact (numberPieces_segments _ b.descriptor.text.toList).symm
  · rw [numberMarkers_eq]
    exact String.toList_ofList
  · -- a piece that is numbered is one of a reference, whose name has the parameter
    intro name i n h
    obtain ⟨l, r, hlr⟩ := List.append_of_mem h
    exact (referent?_eq_some_iff hd hlen hsup).1 (isReference_of_numberPieces hlr).1
  · -- the number counts the parameters referred to so far
    intro name i n h
    rw [hcount]
    exact getElem?_referenced h
  · intro name i n name' i' n' h h'
    exact number_eq_iff h h'
  · intro k hpos hle
    rw [hcount] at hle
    exact exists_number hpos hle
  · -- behind the number no digit follows, so it can be read back
    intro l name i n r h
    refine separate_of_isReference (isReference_of_numberPieces h).2 fun piece hpiece => ?_
    exact source_ne_nil h (List.mem_append_right l (List.mem_cons_of_mem _ hpiece))

/-- **Nothing is missed behind plain characters:** what has the form of a reference to a parameter
that travels is replaced. -/
theorem exists_numbered_piece {b : BoundCommand} (hd : b.descriptor.IsWellFormed)
    (hlen : b.values.length = b.descriptor.parameters.length)
    (hsup : ∀ slot ∈ b.slots, IsSupplied slot) {u name v : List Char} {p : ParameterDescriptor}
    (htext : b.descriptor.text.toList = u ++ marker :: (name ++ v)) (hplain : IsPlain u)
    (href : IsReference u name v)
    (heven : trailingMarkers u % 2 = 0) (hp : p ∈ b.descriptor.parameters)
    (hb : p.direction.isBound = true) (hkey : p.key = parameterKey (String.ofList name)) :
    ∃ l i n r, numberPieces (referent? b.descriptor (b.slots.map slotOf)) []
        (segments b.descriptor.text.toList) = l ++ .numbered name i n :: r ∧
      l.flatMap Piece.source = u := by
  -- the parameter has a place, and the name finds it there
  obtain ⟨i, hi, rfl⟩ := List.mem_iff_getElem.1 hp
  have hfind : referent? b.descriptor (b.slots.map slotOf) name = some i :=
    (referent?_eq_some_iff hd hlen hsup).2 ⟨_, List.getElem?_eq_getElem hi, hb, hkey⟩
  -- in front there is plain code, so the segments begin with it and then have the reference
  obtain ⟨l, r, hsegs, hl⟩ := exists_reference_segmentsAfter [] _ u htext hplain href heven
  obtain ⟨l', n, r', hpieces, hl'⟩ := exists_numberPieces_split [] l r hfind
  refine ⟨l', i, n, r', ?_, ?_⟩
  · rw [segments, hsegs]
    exact hpieces
  · rw [hl', hl]

end Sql

/-- **Text commands are numbered.** If every parameter that travels holds a value or null, there is
a statement, and it is the text with references replaced by numbers. Where no quotes, dollars and
comments stand in front, every reference to such a parameter is replaced, unless its marker is the
second of a pair. -/
theorem statement_is_numbering {source : String} {d : CommandDescriptor}
    (h : CommandDescriptor.compile source = .ok d) (hkind : d.kind = .text) (vs : ParameterValues)
    (hsup : ∀ slot ∈ (d.bind vs).slots, slot.1.direction.isBound = true → slot.2 ≠ .unset) :
    ∃ s pieces, (d.bind vs).statement = .ok s ∧ Sql.IsNumbering (d.bind vs) s pieces ∧
      (∀ u name v p, d.text.toList = u ++ marker :: (name ++ v) → Sql.IsPlain u →
        Sql.IsReference u name v → Sql.trailingMarkers u % 2 = 0 → p ∈ d.parameters →
        p.direction.isBound = true → p.key = parameterKey (String.ofList name) →
        ∃ l i n r, pieces = l ++ .numbered name i n :: r ∧ l.flatMap Sql.Piece.source = u) := by
  have hd : d.IsWellFormed := isWellFormed_of_compile h
  have hlen : (d.bind vs).values.length = d.parameters.length := by
    -- one value for each parameter
    rw [CommandDescriptor.bind_values hd, List.length_map]
  have hstatement : (d.bind vs).statement =
      .ok (Sql.numberMarkers d ((d.bind vs).slots.map Sql.slotOf)) := by
    -- nothing is missing, so all slots are bound and the text is numbered
    have hbound : (d.bind vs).descriptor.kind = .text := hkind
    rw [BoundCommand.statement, Sql.bindSlots_of_isSupplied hsup]
    simp only [hbound]
    rfl
  refine ⟨_, _, hstatement, Sql.numberMarkers_isNumbering hd hlen hsup, ?_⟩
  intro u name v p htext hplain href heven hp hb hkey
  exact Sql.exists_numbered_piece hd hlen hsup htext hplain href heven hp hb hkey

/-- A document whose text refers to one of its parameters twice. -/
def pairDocument : String :=
  "<Command><CommandText>SELECT @b, @a, @B</CommandText><Parameters><Parameter name='a'/>" ++
    "<Parameter name='@b' type='Int'/></Parameters></Command>"

/-- What the document describes. -/
def pairDescriptor : CommandDescriptor where
  timeoutSeconds := 30
  kind := .text
  text := "SELECT @b, @a, @B"
  parameters :=
    [⟨"a", .nVarChar, .input, true, none, none, none, none⟩,
      ⟨"@b", .int, .input, true, none, none, none, none⟩]

/-- The second reference to a parameter has the number of the first, and is found where it is. -/
theorem statement_is_numbering_pair :
    CommandDescriptor.compile pairDocument = .ok pairDescriptor ∧
      let b := pairDescriptor.bind (.ofList [("B", .text "7")])
      ∃ pieces, Sql.IsNumbering b ⟨"SELECT $1, $2, $1", [.value (.int 7), .null .text]⟩ pieces ∧
        ∃ l i n r, pieces = l ++ .numbered ['B'] i n :: r ∧
          l.flatMap Sql.Piece.source = "SELECT @b, @a, ".toList := by
  have hd : CommandDescriptor.compile pairDocument = .ok pairDescriptor :=
    except_eq_ok_of_toOption (by decide +kernel)
  have hs : (pairDescriptor.bind (.ofList [("B", .text "7")])).statement =
      .ok ⟨"SELECT $1, $2, $1", [.value (.int 7), .null .text]⟩ :=
    except_eq_ok_of_toOption (by decide +kernel)
  refine ⟨hd, ?_⟩
  -- what the statement is has been computed, and what it consists of comes from the theorem
  obtain ⟨s, pieces, hstatement, hnumbering, hfound⟩ :=
    statement_is_numbering hd rfl (.ofList [("B", .text "7")]) (by decide +kernel)
  rw [hs] at hstatement
  obtain rfl := Except.ok.inj hstatement
  have hplain : Sql.IsPlain "SELECT @b, @a, ".toList := by decide +kernel
  have href : Sql.IsReference "SELECT @b, @a, ".toList ['B'] [] := by decide +kernel
  refine ⟨pieces, hnumbering, ?_⟩
  exact hfound _ ['B'] [] ⟨"@b", .int, .input, true, none, none, none, none⟩
    (by decide +kernel) hplain href (by decide +kernel) (by decide +kernel) rfl (by decide +kernel)

end QueryGateway
