import QueryGateway.Postgres.Wire
import QueryGateway.Proofs.Sql.Slots

/-!
# Values have no say in the text

Two runs of one command with different values. `statement_independent_of_values` says that the two
statements have one text and announce parameters of the same types, whatever the values are, and
that values of parameters that do not travel, or of no parameter at all, have no effect whatever.

The argument rests on one observation: everything behind `bindSlots` looks at the slots through
`slotTargets` alone, that is at which of them are filled and with what target (`Statement.shape` is
what can be seen of a statement that way). The slots of two runs have the same targets, because the
targets are declared (`bindSlots_targets`). The three kinds of commands are then three lemmas that
take equal targets to equal shapes.
-/

namespace QueryGateway

open Text

/-- Two results look alike through a view: they fail alike, or succeed with what looks alike. -/
theorem except_map_eq_map {ε α β : Type} {x y : Except ε α} {f : α → β}
    (h : x.map f = y.map f) :
    (∃ e, x = .error e ∧ y = .error e) ∨ ∃ a b, x = .ok a ∧ y = .ok b ∧ f a = f b := by
  cases x with
  | error e =>
    cases y with
    | error e' =>
      obtain rfl : e = e' := Except.error.inj h
      exact Or.inl ⟨e, rfl, rfl⟩
    | ok b => cases h
  | ok a =>
    cases y with
    | error e' => cases h
    | ok b => exact Or.inr ⟨a, b, rfl, rfl, Except.ok.inj h⟩

/-- **What of a statement is not a value:** its text and the targets of its parameters. -/
def Statement.shape (s : Statement) : String × List Target :=
  (s.sql, s.params.map BindValue.target)

namespace Sql

variable {d : CommandDescriptor} {slots slots' : List (Option BindValue)}

/-! ### Text commands -/

theorem referent?_congr (h : slotTargets slots = slotTargets slots') :
    referent? d slots = referent? d slots' := by
  have hfilled : (fun i : Nat => slots[i]?.join.isSome) = fun i => slots'[i]?.join.isSome := by
    funext i
    rw [← Option.isSome_map (f := BindValue.target), ← slotTargets_getElem?_join, h,
      slotTargets_getElem?_join, Option.isSome_map]
  funext name
  rw [referent?, hfilled, referent?]

theorem numberMarkers_shape (h : slotTargets slots = slotTargets slots') :
    (numberMarkers d slots).shape = (numberMarkers d slots').shape := by
  have hparams : ∀ order : List Nat,
      (order.filterMap fun i => slots[i]?.join).map BindValue.target =
        (order.filterMap fun i => slots'[i]?.join).map BindValue.target := by
    intro order
    rw [List.map_filterMap, List.map_filterMap]
    congr 1
    funext i
    rw [← slotTargets_getElem?_join, h, slotTargets_getElem?_join]
  rw [Statement.shape, Statement.shape, numberMarkers, numberMarkers, referent?_congr h]
  exact congrArg (Prod.mk _) (hparams _)

/-! ### Procedures and tables -/

/-- What of the arguments of a procedure is not a value. -/
def argumentShape (a : String × BindValue) : String × Target :=
  (a.1, a.2.target)

/-- The arguments of a call depend on the values through their types alone: the names come from the
parameters, and which of them travel from the slots that are filled. -/
theorem arguments_shape (ps : List ParameterDescriptor)
    (h : slotTargets slots = slotTargets slots') :
    (arguments (ps.zip slots)).map (List.map argumentShape) =
      (arguments (ps.zip slots')).map (List.map argumentShape) := by
  -- along the parameters, with the slots of both in step
  induction ps generalizing slots slots' with
  | nil => rfl
  | cons p ps ih =>
    cases slots with
    | nil =>
      cases slots' with
      | nil => rfl
      | cons s' rest' => cases h
    | cons s rest =>
      cases slots' with
      | nil => cases h
      | cons s' rest' =>
        rw [slotTargets, slotTargets, List.map_cons, List.map_cons, List.cons.injEq] at h
        obtain ⟨hs, hrest⟩ := h
        have ih := ih hrest
        rw [List.zip_cons_cons, List.zip_cons_cons]
        -- a slot is filled on both sides or on neither
        cases s with
        | none =>
          cases s' with
          | none => exact ih
          | some v' => cases hs
        | some v =>
          cases s' with
          | none => cases hs
          | some v' =>
            have hv : v.target = v'.target := Option.some.inj hs
            rw [arguments, arguments]
            -- a name that cannot be an argument is refused on both sides
            split
            · rcases except_map_eq_map ih with ⟨e, ha, ha'⟩ | ⟨args, args', ha, ha', hargs⟩
              · rw [ha, ha']
                rfl
              · rw [ha, ha']
                change Except.ok ((_, v.target) :: args.map argumentShape) =
                  Except.ok ((_, v'.target) :: args'.map argumentShape)
                rw [hv, hargs]
            · rfl

/-- A call has the same text and types, whatever the values: the name of the procedure is checked
first, and then the arguments. -/
theorem callProcedure_shape (h : slotTargets slots = slotTargets slots') :
    (callProcedure d slots).map Statement.shape = (callProcedure d slots').map Statement.shape := by
  rw [callProcedure, callProcedure]
  cases objectName d.text with
  | error e => rfl
  | ok name =>
    rcases except_map_eq_map (arguments_shape d.parameters h) with
      ⟨e, ha, ha'⟩ | ⟨args, args', ha, ha', hshape⟩
    · rw [ha, ha']
    · rw [ha, ha']
      -- the names are written into the text, and the types are announced
      have hnames : args.map (·.1) = args'.map (·.1) := by
        have := congrArg (List.map Prod.fst) hshape
        rwa [List.map_map, List.map_map] at this
      have htargets : (args.map (·.2)).map BindValue.target =
          (args'.map (·.2)).map BindValue.target := by
        have := congrArg (List.map Prod.snd) hshape
        rwa [List.map_map, List.map_map] at this ⊢
      change Except.ok (_, (args.map (·.2)).map BindValue.target) =
        Except.ok (_, (args'.map (·.2)).map BindValue.target)
      rw [hnames, htargets]

/-! ### All kinds -/

/-- The statement for slots, of whatever kind the command is. The slots are all that it takes of the
values. -/
def statementOfSlots (d : CommandDescriptor) (slots : List (Option BindValue)) :
    Except GatewayError Statement :=
  match d.kind with
  | .text => .ok (numberMarkers d slots)
  | .storedProcedure => (callProcedure d slots).mapError .descriptor
  | .tableDirect => (readTable d).mapError .descriptor

theorem statement_eq (b : BoundCommand) :
    b.statement =
      match bindSlots b.slots with
      | .error fault => .error (.badRequest fault)
      | .ok slots => statementOfSlots b.descriptor slots := rfl

/-- A statement of either kind has the same shape for slots with the same types. -/
theorem statementOfSlots_shape (h : slotTargets slots = slotTargets slots') :
    (statementOfSlots d slots).map Statement.shape =
      (statementOfSlots d slots').map Statement.shape := by
  unfold statementOfSlots
  cases d.kind with
  | text => exact congrArg Except.ok (numberMarkers_shape h)
  | storedProcedure =>
    change ((callProcedure d slots).mapError _).map _ = ((callProcedure d slots').mapError _).map _
    rcases except_map_eq_map (callProcedure_shape (d := d) h) with
      ⟨e, hs, hs'⟩ | ⟨s, s', hs, hs', hshape⟩
    · rw [hs, hs']
    · rw [hs, hs']
      exact congrArg Except.ok hshape
  | tableDirect => rfl

end Sql

/-! ### Two runs -/

/-- Statements of one shape have one text and announce the same types. -/
theorem Statement.announced_of_shape {s t : Statement} (h : s.shape = t.shape) :
    s.sql = t.sql ∧ s.params.length = t.params.length ∧
      s.params.map Postgres.announced = t.params.map Postgres.announced := by
  obtain ⟨hsql, htargets⟩ := Prod.mk.inj h
  refine ⟨hsql, ?_, ?_⟩
  · have := congrArg List.length htargets
    rwa [List.length_map, List.length_map] at this
  · -- the announced type is that of the target
    have := congrArg (List.map Postgres.ParameterType.ofTarget) htargets
    rwa [List.map_map, List.map_map] at this

/-- Taking apart a statement that comes about. -/
theorem BoundCommand.statement_eq_ok {b : BoundCommand} {s : Statement}
    (h : b.statement = .ok s) :
    ∃ slots, Sql.bindSlots b.slots = .ok slots ∧
      Sql.statementOfSlots b.descriptor slots = .ok s := by
  rw [Sql.statement_eq] at h
  cases hslots : Sql.bindSlots b.slots with
  | error fault => rw [hslots] at h; cases h
  | ok slots => rw [hslots] at h; exact ⟨slots, rfl, h⟩

/-- **The slots of two runs have the same targets,** those that are declared. -/
theorem CommandDescriptor.bind_slotTargets {d : CommandDescriptor} (hd : d.IsWellFormed)
    {v : ParameterValues} {slots : List (Option BindValue)}
    (h : Sql.bindSlots (d.bind v).slots = .ok slots) :
    Sql.slotTargets slots =
      d.parameters.map fun p => if p.direction.isBound then some p.target else none := by
  rw [Sql.bindSlots_targets (bind_fits hd v) h, bind_slots hd, List.map_map]
  rfl

theorem CommandDescriptor.bind_statement_shape {d : CommandDescriptor} (hd : d.IsWellFormed)
    {v w : ParameterValues} {s t : Statement} (hs : (d.bind v).statement = .ok s)
    (ht : (d.bind w).statement = .ok t) : s.shape = t.shape := by
  obtain ⟨slots, hslots, hs⟩ := BoundCommand.statement_eq_ok hs
  obtain ⟨slots', hslots', ht⟩ := BoundCommand.statement_eq_ok ht
  change Sql.statementOfSlots d slots = .ok s at hs
  change Sql.statementOfSlots d slots' = .ok t at ht
  have htargets : Sql.slotTargets slots = Sql.slotTargets slots' := by
    rw [bind_slotTargets hd hslots, bind_slotTargets hd hslots']
  have hshape := Sql.statementOfSlots_shape (d := d) htargets
  rw [hs, ht] at hshape
  exact Except.ok.inj hshape

/-- **Only entries of parameters that travel matter.** -/
theorem CommandDescriptor.bind_statement_congr {d : CommandDescriptor} (hd : d.IsWellFormed)
    {v w : ParameterValues} (hv : v.IsNormal) (hw : w.IsNormal)
    (h : ∀ p ∈ d.parameters, p.direction.isBound = true → v.get? p.name = w.get? p.name) :
    (d.bind v).statement = (d.bind w).statement := by
  have hslots : Sql.bindSlots (d.bind v).slots = Sql.bindSlots (d.bind w).slots := by
    rw [bind_slots hd, bind_slots hd]
    refine Sql.bindSlots_congr fun p hp hb => ?_
    rw [ParameterDescriptor.heldAfter_of_isNormal hv, ParameterDescriptor.heldAfter_of_isNormal hw,
      h p hp hb]
  rw [Sql.statement_eq, Sql.statement_eq, hslots]
  rfl

/-- **Values never get into the text.** Two statements of one descriptor have one text and announce
parameters of the same types in the same order, whatever the values; and if the values agree under
the keys of the parameters that travel, the results agree, errors included. -/
theorem statement_independent_of_values {source : String} {d : CommandDescriptor}
    (h : CommandDescriptor.compile source = .ok d) (v w : ParameterValues) :
    (∀ s t, (d.bind v).statement = .ok s → (d.bind w).statement = .ok t →
      s.sql = t.sql ∧ s.params.length = t.params.length ∧
        s.params.map Postgres.announced = t.params.map Postgres.announced) ∧
    (v.Reachable → w.Reachable →
      (∀ p ∈ d.parameters, p.direction.isBound = true → v.get? p.key = w.get? p.key) →
      (d.bind v).statement = (d.bind w).statement) := by
  -- well-formed, so the slots are those of the parameters in their order
  have hd := isWellFormed_of_compile h
  refine ⟨?_, ?_⟩
  · -- both statements have the shape that the descriptor and the types of the slots give
    intro s t hs ht
    exact Statement.announced_of_shape (CommandDescriptor.bind_statement_shape hd hs ht)
  · intro hv hw hagree
    refine CommandDescriptor.bind_statement_congr hd hv.isNormal hw.isNormal fun p hp hb => ?_
    -- a key is the key of itself, so looking it up finds what the name finds
    have hkey : parameterKey p.key = parameterKey p.name := parameterKey_parameterKey p.name
    have hget := hagree p hp hb
    rwa [ParameterValues.get?, ParameterValues.get?, hkey] at hget

/-! ### Two notes -/

/-- A document with one parameter that travels and one that does not. -/
def noteDocument : String :=
  "<Command><CommandText>SELECT @note</CommandText><Parameters><Parameter name='@note'/>" ++
    "<Parameter name='@n' direction='Output'/></Parameters></Command>"

/-- What the document describes. -/
def noteDescriptor : CommandDescriptor where
  timeoutSeconds := 30
  kind := .text
  text := "SELECT @note"
  parameters :=
    [⟨"@note", .nVarChar, .input, true, none, none, none, none⟩,
      ⟨"@n", .nVarChar, .output, true, none, none, none, none⟩]

/-- A note that looks like the end of a literal, with and without a value for the other parameter,
and no note at all. -/
theorem statement_independent_of_values_note :
    CommandDescriptor.compile noteDocument = .ok noteDescriptor ∧
      let v := ParameterValues.ofList [("note", .text "x' OR @note")]
      let w := ParameterValues.ofList [("@n", .text "1"), ("Note", .text "x' OR @note")]
      (noteDescriptor.bind v).statement = (noteDescriptor.bind w).statement ∧
      ∃ s t, (noteDescriptor.bind v).statement = .ok s ∧
        (noteDescriptor.bind (.ofList [("NOTE", .null)])).statement = .ok t ∧
        s.params ≠ t.params ∧ s.sql = t.sql ∧ s.params.length = t.params.length ∧
        s.params.map Postgres.announced = t.params.map Postgres.announced := by
  have hd : CommandDescriptor.compile noteDocument = .ok noteDescriptor :=
    except_eq_ok_of_toOption (by decide +kernel)
  refine ⟨hd, ?_, ?_⟩
  · -- the same entry under the same key, found by names of two spellings
    exact (statement_independent_of_values hd _ _).2 (ParameterValues.reachable_ofList _)
      (ParameterValues.reachable_ofList _) (by decide +kernel)
  · -- another value: the text is the same though the parameters differ
    have hs : (noteDescriptor.bind (.ofList [("note", .text "x' OR @note")])).statement =
        .ok ⟨"SELECT $1", [.value (.text "x' OR @note")]⟩ :=
      except_eq_ok_of_toOption (by decide +kernel)
    have ht : (noteDescriptor.bind (.ofList [("NOTE", .null)])).statement =
        .ok ⟨"SELECT $1", [.null .text]⟩ :=
      except_eq_ok_of_toOption (by decide +kernel)
    exact ⟨_, _, hs, ht, by decide, (statement_independent_of_values hd _ _).1 _ _ hs ht⟩

end QueryGateway
