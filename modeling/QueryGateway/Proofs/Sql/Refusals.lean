import QueryGateway.Proofs.Command.Locality
import QueryGateway.Proofs.First
import QueryGateway.Proofs.Sql.Independence
import QueryGateway.Proofs.Sql.ObjectNames

/-!
# When there is no statement

A command has no statement for one of two reasons, and the first goes before the second. A request
may lack a value (`ParameterDescriptor.Lacks`): of the parameters that do, the first is named,
whatever the kind of the command and whether or not its text refers to the parameter. Or the
descriptor may name what cannot be named: an object, or an argument of a procedure
(`CommandDescriptor.Misnames`).

`statement_refused_iff` says exactly when each of the errors arises, and that there is a statement
in all other cases. Slots come about if and only if nothing is lacking (`bindSlots_eq_error_iff`),
and arguments if and only if all of them can be named (`arguments_eq`).
-/

namespace QueryGateway

open Text

/-! ### What is lacking -/

/-- **A parameter that lacks a value,** given the entry under its key. All four conditions have to
come together: any one of the others saves it. -/
structure ParameterDescriptor.Lacks (p : ParameterDescriptor) (entry : Option RawValue) : Prop where
  /-- Something has to travel for it. -/
  travels : p.direction.isBound = true
  /-- It may not be null. -/
  required : p.isNullable = false
  /-- No value is declared. -/
  undeclared : p.defaultValue = none
  /-- Nothing is supplied that converts to a value. -/
  unsupplied : ∀ raw, entry = some raw → ∀ v, p.target.rule.strictNullable raw ≠ .ok (some v)

theorem Rule.strictNullable_of_isNull {α : Type} {rule : Rule α} {raw : RawValue}
    (h : raw.isNull = true) : rule.strictNullable raw = .ok none := by
  rw [Rule.strictNullable, Rule.evaluate, if_pos h]

theorem ParameterDescriptor.initialValue_eq_unset_iff {p : ParameterDescriptor} :
    p.initialValue = .unset ↔ p.isNullable = false ∧ p.defaultValue = none := by
  rw [initialValue]
  cases p.defaultValue <;> cases p.isNullable <;> simp

/-- **A parameter is left without a value** if it starts without one and gets none. -/
theorem ParameterDescriptor.slotFor_eq_unset_iff {p : ParameterDescriptor}
    {entry : Option RawValue} :
    p.slotFor entry = .unset ↔ p.initialValue = .unset ∧
      ∀ raw, entry = some raw → ∀ v, p.target.rule.strictNullable raw ≠ .ok (some v) := by
  -- nothing supplied, a null, or a value that converts or does not
  cases entry with
  | none => simp [slotFor]
  | some raw =>
    simp only [Option.some.injEq, forall_eq']
    cases hnull : raw.isNull with
    | true =>
      rw [slotFor_of_isNull hnull, Rule.strictNullable_of_isNull hnull, initialValue_eq_unset_iff]
      cases hnullable : p.isNullable <;> simp [initialValue_eq_unset_iff, hnullable]
    | false =>
      rw [slotFor_of_not_isNull hnull]
      cases p.target.rule.strictNullable raw with
      | error e => simp
      | ok converted => cases converted <;> simp

/-- What lacks a value is not supplied. -/
theorem ParameterDescriptor.lacks_iff {p : ParameterDescriptor} {entry : Option RawValue} :
    p.Lacks entry ↔ ¬ Sql.IsSupplied (p, p.slotFor entry) := by
  rw [Sql.IsSupplied, Classical.not_imp, Classical.not_not, slotFor_eq_unset_iff,
    initialValue_eq_unset_iff]
  constructor
  · exact fun h => ⟨h.travels, ⟨h.required, h.undeclared⟩, h.unsupplied⟩
  · rintro ⟨htravels, ⟨hrequired, hundeclared⟩, hunsupplied⟩
    exact ⟨htravels, hrequired, hundeclared, hunsupplied⟩

instance (p : ParameterDescriptor) (entry : Option RawValue) : Decidable (p.Lacks entry) :=
  decidable_of_iff (¬ (p.direction.isBound = true → p.slotFor entry ≠ .unset))
    ParameterDescriptor.lacks_iff.symm

namespace Sql

/-- **Slots fail at the first parameter that is not supplied.** -/
theorem bindSlots_eq_error_iff {slots : List (ParameterDescriptor × BoundValue)}
    {fault : RequestFault} :
    bindSlots slots = .error fault ↔
      ∃ slot, IsFirst (¬ IsSupplied ·) slots slot ∧ fault = .missingValue slot.1.name := by
  -- in declared order: the first round that lacks its value fails
  induction slots with
  | nil =>
    refine ⟨fun h => (by cases h), ?_⟩
    rintro ⟨slot, h, -⟩
    exact absurd h not_isFirst_nil
  | cons slot rest ih =>
    simp only [isFirst_cons_iff]
    by_cases hsup : IsSupplied slot
    · rw [bindSlots_cons_of_isSupplied hsup]
      have hmap : (bindSlots rest).map (slotOf slot :: ·) = .error fault ↔
          bindSlots rest = .error fault := by
        cases bindSlots rest with
        | error e => exact Iff.rfl
        | ok out => exact ⟨fun h => (by cases h), fun h => (by cases h)⟩
      simp [hmap, ih, hsup]
    · rw [bindSlots_cons_of_not_isSupplied hsup]
      simp [hsup, eq_comm]

/-! ### What cannot be named -/

theorem objectName_of_isObjectName {text : String} (h : IsObjectName text.toList) :
    objectName text = .ok text := by
  rw [objectName, if_pos (isObjectName_iff.2 h)]

theorem objectName_of_not_isObjectName {text : String} (h : ¬ IsObjectName text.toList) :
    objectName text = .error (.malformed (.invalidObjectName text)) := by
  rw [objectName, if_neg fun hname => h (isObjectName_iff.1 hname)]

/-- A slot whose parameter is no argument. -/
def IsMisnamed (slot : ParameterDescriptor × Option BindValue) : Prop :=
  slot.2.isSome = true ∧ ¬ IsArgument (stripMarkers slot.1.name).toList

/-- The arguments for slots that are filled. -/
def argumentsOf (slots : List (ParameterDescriptor × Option BindValue)) :
    List (String × BindValue) :=
  slots.filterMap fun slot => slot.2.map (stripMarkers slot.1.name, ·)

theorem argumentsOf_cons (slot : ParameterDescriptor × Option BindValue)
    (rest : List (ParameterDescriptor × Option BindValue)) :
    argumentsOf (slot :: rest) =
      (slot.2.map (stripMarkers slot.1.name, ·)).toList ++ argumentsOf rest := by
  obtain ⟨p, filled⟩ := slot
  cases filled <;> rfl

/-- One round of `arguments`, when the parameter can be named or does not travel. -/
theorem arguments_cons_of_not_isMisnamed {slot : ParameterDescriptor × Option BindValue}
    (h : ¬ IsMisnamed slot) (rest : List (ParameterDescriptor × Option BindValue)) :
    arguments (slot :: rest) = (arguments rest).map
      -- a slot that is filled has a name that passes, and an empty one is passed over
      ((slot.2.map (stripMarkers slot.1.name, ·)).toList ++ ·) := by
  obtain ⟨p, filled⟩ := slot
  cases filled with
  | none =>
    rw [arguments]
    cases arguments rest <;> rfl
  | some v =>
    have hname : IsArgument (stripMarkers p.name).toList :=
      Classical.not_not.1 fun hname => h ⟨rfl, hname⟩
    rw [arguments, if_pos (isArgumentName_iff.2 hname)]
    cases arguments rest <;> rfl

/-- **Arguments fail at the first parameter that cannot be named;** without one they are those of
the slots. -/
theorem arguments_eq (slots : List (ParameterDescriptor × Option BindValue)) :
    (∃ slot, IsFirst IsMisnamed slots slot ∧
      arguments slots = .error (.malformed (.invalidArgumentName slot.1.name))) ∨
    (∀ slot ∈ slots, ¬ IsMisnamed slot) ∧ arguments slots = .ok (argumentsOf slots) := by
  induction slots with
  | nil => exact Or.inr ⟨fun slot h => absurd h List.not_mem_nil, rfl⟩
  | cons slot rest ih =>
    by_cases hslot : IsMisnamed slot
    · -- it fails here, whatever comes later
      refine Or.inl ⟨slot, isFirst_cons_iff.2 (Or.inl ⟨hslot, rfl⟩), ?_⟩
      obtain ⟨p, filled⟩ := slot
      obtain ⟨hfilled, hname⟩ := hslot
      obtain ⟨v, rfl⟩ := Option.isSome_iff_exists.1 hfilled
      rw [arguments, if_neg fun h => hname (isArgumentName_iff.1 h)]
    · -- this one passes, so the rest decides
      rw [arguments_cons_of_not_isMisnamed hslot]
      rcases ih with ⟨first, hfirst, herror⟩ | ⟨hall, hok⟩
      · refine Or.inl ⟨first, isFirst_cons_iff.2 (Or.inr ⟨hslot, hfirst⟩), ?_⟩
        rw [herror]
        rfl
      · refine Or.inr ⟨List.forall_mem_cons.2 ⟨hslot, hall⟩, ?_⟩
        rw [hok, argumentsOf_cons]
        rfl

end Sql

/-! ### Outcomes -/

namespace CommandDescriptor

/-- **A command that names no object** where it has to name one. A text command names none and is
not asked to. -/
def NamesNothing (d : CommandDescriptor) : Prop :=
  d.kind ≠ .text ∧ ¬ Sql.IsObjectName d.text.toList

/-- **A parameter of a procedure that is no argument,** although it travels. One that does not
travel is not written into the call, so its name may be anything. -/
structure Misnames (d : CommandDescriptor) (p : ParameterDescriptor) : Prop where
  procedure : d.kind = .storedProcedure
  travels : p.direction.isBound = true
  unnamed : ¬ Sql.IsArgument (stripMarkers p.name).toList

instance (d : CommandDescriptor) : Decidable d.NamesNothing :=
  inferInstanceAs (Decidable (_ ∧ _))

instance (d : CommandDescriptor) (p : ParameterDescriptor) : Decidable (d.Misnames p) :=
  decidable_of_iff (d.kind = .storedProcedure ∧ p.direction.isBound = true ∧
      ¬ Sql.IsArgument (stripMarkers p.name).toList)
    ⟨fun ⟨hkind, hbound, hname⟩ => ⟨hkind, hbound, hname⟩,
      fun h => ⟨h.procedure, h.travels, h.unnamed⟩⟩

/-- **How a command comes to have a statement, or none,** if some parameters lack a value. -/
inductive Outcome (d : CommandDescriptor) (lacks : ParameterDescriptor → Prop) :
    Except GatewayError Statement → Prop where
  /-- The first parameter that lacks a value is named. -/
  | lacking (p : ParameterDescriptor) (h : IsFirst lacks d.parameters p) :
    Outcome d lacks (.error (.badRequest (.missingValue p.name)))
  | unnamed (hall : ∀ p ∈ d.parameters, ¬ lacks p) (h : d.NamesNothing) :
    Outcome d lacks (.error (.descriptor (.malformed (.invalidObjectName d.text))))
  /-- The first parameter that is no argument is named. -/
  | misnamed (p : ParameterDescriptor) (hall : ∀ p ∈ d.parameters, ¬ lacks p)
      (hname : ¬ d.NamesNothing) (h : IsFirst d.Misnames d.parameters p) :
    Outcome d lacks (.error (.descriptor (.malformed (.invalidArgumentName p.name))))
  | built (s : Statement) (hall : ∀ p ∈ d.parameters, ¬ lacks p) (hname : ¬ d.NamesNothing)
      (h : ∀ p ∈ d.parameters, ¬ d.Misnames p) (htable : d.kind = .tableDirect → s.params = []) :
    Outcome d lacks (.ok s)

namespace Outcome

variable {d : CommandDescriptor} {lacks : ParameterDescriptor → Prop}
  {r : Except GatewayError Statement}

theorem badRequest_iff (h : d.Outcome lacks r) :
    (∃ fault, r = .error (.badRequest fault)) ↔ ∃ p ∈ d.parameters, lacks p := by
  constructor
  · rintro ⟨fault, rfl⟩
    cases h with
    | lacking p hp => exact ⟨p, hp.mem, hp.holds⟩
  · rintro ⟨p, hp, hlacks⟩
    cases h with
    | lacking q hq => exact ⟨_, rfl⟩
    | unnamed hall hname => exact absurd hlacks (hall p hp)
    | misnamed q hall hname hq => exact absurd hlacks (hall p hp)
    | built s hall hname hargs htable => exact absurd hlacks (hall p hp)

/-- **The first parameter that lacks a value is named.** -/
theorem eq_of_isFirst (h : d.Outcome lacks r) {p : ParameterDescriptor}
    (hp : IsFirst lacks d.parameters p) : r = .error (.badRequest (.missingValue p.name)) := by
  cases h with
  | lacking q hq => rw [hp.unique hq]
  | unnamed hall hname => exact absurd hp.holds (hall p hp.mem)
  | misnamed q hall hname hq => exact absurd hp.holds (hall p hp.mem)
  | built s hall hname hargs htable => exact absurd hp.holds (hall p hp.mem)

theorem malformed_iff (h : d.Outcome lacks r) :
    (∃ fault, r = .error (.descriptor (.malformed fault))) ↔
      (∀ p ∈ d.parameters, ¬ lacks p) ∧ (d.NamesNothing ∨ ∃ p ∈ d.parameters, d.Misnames p) := by
  -- a malformed descriptor has one of two outcomes, and both come after the values
  constructor
  · rintro ⟨fault, rfl⟩
    cases h with
    | unnamed hall hname => exact ⟨hall, Or.inl hname⟩
    | misnamed p hall hname hp => exact ⟨hall, Or.inr ⟨p, hp.mem, hp.holds⟩⟩
  · -- back: the outcomes with a lacking value, and the one with a statement, are excluded
    rintro ⟨hall, hcause⟩
    cases h with
    | lacking p hp => exact absurd hp.holds (hall p hp.mem)
    | unnamed _ hname => exact ⟨_, rfl⟩
    | misnamed p _ hname hp => exact ⟨_, rfl⟩
    | built s _ hname hargs htable =>
      obtain ⟨p, hp, hmisnamed⟩ := hcause.resolve_left hname
      exact absurd hmisnamed (hargs p hp)

theorem ok_iff (h : d.Outcome lacks r) :
    (∃ s, r = .ok s) ↔
      (∀ p ∈ d.parameters, ¬ lacks p) ∧ ¬ d.NamesNothing ∧ ∀ p ∈ d.parameters, ¬ d.Misnames p := by
  constructor
  · rintro ⟨s, rfl⟩
    cases h with
    | built s hall hname hargs htable => exact ⟨hall, hname, hargs⟩
  · rintro ⟨hall, hname, hargs⟩
    cases h with
    | lacking p hp => exact absurd hp.holds (hall p hp.mem)
    | unnamed _ h => exact absurd h hname
    | misnamed p _ _ hp => exact absurd hp.holds (hargs p hp.mem)
    | built s _ _ _ htable => exact ⟨s, rfl⟩

/-- A text command is never malformed. -/
theorem badRequest_of_text (h : d.Outcome lacks r) (hkind : d.kind = .text) {e : GatewayError}
    (he : r = .error e) : ∃ fault, e = .badRequest fault := by
  subst he
  cases h with
  | lacking p hp => exact ⟨_, rfl⟩
  | unnamed hall hname => exact absurd hkind hname.1
  | misnamed p hall hname hp =>
    exact CommandKind.noConfusion (hkind.symm.trans hp.holds.procedure)

theorem params_of_table (h : d.Outcome lacks r) (hkind : d.kind = .tableDirect) {s : Statement}
    (hs : r = .ok s) : s.params = [] := by
  subst hs
  cases h with
  | built s hall hname hargs htable => exact htable hkind

end Outcome

/-- The parameters with what they hold. -/
theorem bind_slots_eq_slotFor {d : CommandDescriptor} (hd : d.IsWellFormed) {vs : ParameterValues}
    (h : vs.IsNormal) :
    (d.bind vs).slots = d.parameters.map fun p => (p, p.slotFor (vs.get? p.key)) := by
  rw [BoundCommand.slots, bind_values_eq_slotFor hd h]
  exact List.map_prod_left_eq_zip.symm

variable {d : CommandDescriptor} {held : ParameterDescriptor → BoundValue}

/-- The parameters of a command with what travels for them. -/
theorem zip_slotOf (d : CommandDescriptor) (held : ParameterDescriptor → BoundValue) :
    d.parameters.zip ((d.parameters.map fun p => (p, held p)).map Sql.slotOf) =
      d.parameters.map fun p => (p, Sql.slotOf (p, held p)) := by
  rw [List.map_map]
  exact List.map_prod_left_eq_zip.symm

/-- A parameter that is supplied is misnamed by its command or not at all. -/
theorem isMisnamed_iff (hkind : d.kind = .storedProcedure) {p : ParameterDescriptor}
    (hsup : Sql.IsSupplied (p, held p)) :
    Sql.IsMisnamed (p, Sql.slotOf (p, held p)) ↔ d.Misnames p := by
  have hfilled := Sql.slotOf_isSome hsup
  exact ⟨fun ⟨hsome, hname⟩ => ⟨hkind, hfilled.symm.trans hsome, hname⟩,
    fun h => ⟨hfilled.trans h.travels, h.unnamed⟩⟩

/-- **How the statement comes about when nothing is lacking.** -/
theorem outcome_of_isSupplied {lacks : ParameterDescriptor → Prop}
    (hsup : ∀ p ∈ d.parameters, Sql.IsSupplied (p, held p)) (hall : ∀ p ∈ d.parameters, ¬ lacks p) :
    d.Outcome lacks
      (Sql.statementOfSlots d ((d.parameters.map fun p => (p, held p)).map Sql.slotOf)) := by
  unfold Sql.statementOfSlots
  -- the kind of the command says what it can fail at
  cases hkind : d.kind with
  | text =>
    refine .built _ hall (fun h => h.1 hkind) (fun p _ h => ?_) fun h => ?_
    · exact CommandKind.noConfusion (hkind.symm.trans h.procedure)
    · exact CommandKind.noConfusion (hkind.symm.trans h)
  | storedProcedure =>
    change d.Outcome lacks ((Sql.callProcedure d _).mapError .descriptor)
    rw [Sql.callProcedure, zip_slotOf]
    by_cases hname : Sql.IsObjectName d.text.toList
    · have hnamed : ¬ d.NamesNothing := fun h => h.2 hname
      rw [Sql.objectName_of_isObjectName hname]
      -- all that is left to fail are the names of the arguments
      rcases Sql.arguments_eq (d.parameters.map fun p => (p, Sql.slotOf (p, held p))) with
        ⟨slot, hfirst, herror⟩ | ⟨hargs, hok⟩
      · obtain ⟨p, hp, rfl⟩ := isFirst_map_iff.1 hfirst
        rw [herror]
        exact .misnamed p hall hnamed (hp.congr fun q hq => isMisnamed_iff hkind (hsup q hq))
      · rw [hok]
        refine .built _ hall hnamed (fun p hp h => ?_) fun h => ?_
        · exact hargs _ (List.mem_map_of_mem hp) ((isMisnamed_iff hkind (hsup p hp)).2 h)
        · exact CommandKind.noConfusion (hkind.symm.trans h)
    · rw [Sql.objectName_of_not_isObjectName hname]
      exact .unnamed hall ⟨fun h => CommandKind.noConfusion (hkind.symm.trans h), hname⟩
  -- a table has a name to fail at, and no arguments
  | tableDirect =>
    change d.Outcome lacks ((Sql.readTable d).mapError .descriptor)
    rw [Sql.readTable]
    by_cases hname : Sql.IsObjectName d.text.toList
    · rw [Sql.objectName_of_isObjectName hname]
      refine .built _ hall (fun h => h.2 hname) (fun p _ h => ?_) fun _ => rfl
      exact CommandKind.noConfusion (hkind.symm.trans h.procedure)
    · rw [Sql.objectName_of_not_isObjectName hname]
      exact .unnamed hall ⟨fun h => CommandKind.noConfusion (hkind.symm.trans h), hname⟩

/-- **How the statement of a command comes about.** -/
theorem statement_outcome (hd : d.IsWellFormed) {vs : ParameterValues} (hvs : vs.IsNormal) :
    d.Outcome (fun p => p.Lacks (vs.get? p.key)) (d.bind vs).statement := by
  rw [Sql.statement_eq, bind_slots_eq_slotFor hd hvs]
  cases hslots : Sql.bindSlots (d.parameters.map fun p => (p, p.slotFor (vs.get? p.key))) with
  | error fault =>
    obtain ⟨slot, hfirst, rfl⟩ := Sql.bindSlots_eq_error_iff.1 hslots
    obtain ⟨p, hp, rfl⟩ := isFirst_map_iff.1 hfirst
    exact .lacking p (hp.congr fun q _ => ParameterDescriptor.lacks_iff.symm)
  | ok slots =>
    obtain rfl := Sql.eq_map_slotOf_of_bindSlots hslots
    have hsup := List.forall_mem_map.1 (Sql.isSupplied_of_bindSlots hslots)
    refine outcome_of_isSupplied hsup fun p hp hlacks => ?_
    exact ParameterDescriptor.lacks_iff.1 hlacks (hsup p hp)

end CommandDescriptor

/-- **When there is no statement.** A request is bad if and only if a parameter lacks a value, and
the first such is named. Otherwise the descriptor is malformed if and only if it names no object
where it has to, or has a parameter that travels and is no argument of a procedure. In all other
cases there is a statement. A text command is never malformed, and the statement of a table has no
parameters. -/
theorem statement_refused_iff {source : String} {d : CommandDescriptor}
    (h : CommandDescriptor.compile source = .ok d) {vs : ParameterValues} (hvs : vs.Reachable) :
    let lacks := fun p : ParameterDescriptor => p.Lacks (vs.get? p.key)
    let result := (d.bind vs).statement
    ((∃ fault, result = .error (.badRequest fault)) ↔ ∃ p ∈ d.parameters, lacks p) ∧
    (∀ p, IsFirst lacks d.parameters p → result = .error (.badRequest (.missingValue p.name))) ∧
    ((∃ fault, result = .error (.descriptor (.malformed fault))) ↔
      (∀ p ∈ d.parameters, ¬ lacks p) ∧ (d.NamesNothing ∨ ∃ p ∈ d.parameters, d.Misnames p)) ∧
    ((∃ s, result = .ok s) ↔
      (∀ p ∈ d.parameters, ¬ lacks p) ∧ ¬ d.NamesNothing ∧ ∀ p ∈ d.parameters, ¬ d.Misnames p) ∧
    (d.kind = .text → ∀ e, result = .error e → ∃ fault, e = .badRequest fault) ∧
    (d.kind = .tableDirect → ∀ s, result = .ok s → s.params = []) := by
  -- each clause is read off the one outcome that the statement has
  have houtcome := CommandDescriptor.statement_outcome (isWellFormed_of_compile h) hvs.isNormal
  exact ⟨houtcome.badRequest_iff, fun p => houtcome.eq_of_isFirst, houtcome.malformed_iff,
    houtcome.ok_iff, fun hkind e => houtcome.badRequest_of_text hkind,
    fun hkind s => houtcome.params_of_table hkind⟩

/-! ### A ledger -/

/-- A document of a table with two parameters that need values. One of them could be no argument. -/
def ledgerDocument : String :=
  "<Command type='TableDirect'><CommandText>led.ger</CommandText><Parameters>" ++
    "<Parameter name='@id' type='Int' isNullable='false'/>" ++
    "<Parameter name='no. 1' isNullable='false'/></Parameters></Command>"

/-- What the document describes. -/
def ledgerDescriptor : CommandDescriptor where
  timeoutSeconds := 30
  kind := .tableDirect
  text := "led.ger"
  parameters :=
    [⟨"@id", .int, .input, false, none, none, none, none⟩,
      ⟨"no. 1", .nVarChar, .input, false, none, none, none, none⟩]

/-- A number that does not convert is lacking, and so is the parameter after it. With both there is
a statement, which carries neither. -/
theorem statement_refused_iff_ledger :
    CommandDescriptor.compile ledgerDocument = .ok ledgerDescriptor ∧
      (ledgerDescriptor.bind (.ofList [("id", .text "seven")])).statement =
        .error (.badRequest (.missingValue "@id")) ∧
      ∃ s, (ledgerDescriptor.bind (.ofList [("ID", .text "7"), ("NO. 1", .int 1)])).statement =
        .ok s ∧ s.params = [] := by
  have hd : CommandDescriptor.compile ledgerDocument = .ok ledgerDescriptor :=
    except_eq_ok_of_toOption (by decide +kernel)
  -- the first parameter lacks its value, and it is the first to do so
  obtain ⟨-, hfirst, -⟩ :=
    statement_refused_iff hd (ParameterValues.reachable_ofList [("id", .text "seven")])
  obtain ⟨-, -, -, hbuilt, -, hparams⟩ := statement_refused_iff hd
    (ParameterValues.reachable_ofList [("ID", .text "7"), ("NO. 1", .int 1)])
  -- with both values nothing is lacking, and a table is named
  obtain ⟨s, hs⟩ := hbuilt.2 (by decide +kernel)
  refine ⟨hd, ?_, s, hs, hparams rfl s hs⟩
  exact hfirst ⟨"@id", .int, .input, false, none, none, none, none⟩ (by decide +kernel)

end QueryGateway
