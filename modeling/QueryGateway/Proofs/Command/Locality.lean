import QueryGateway.Proofs.Command.Binding

/-!
# What each parameter holds

Binding supplies the entries one after the other, looks up the parameter of each, and keeps what was
there before where an entry does not convert. `ParameterDescriptor.slotFor` says what comes of this
without any of it: a parameter and the entry under its key, if there is one, decide what the
parameter holds. `bind_local` says that binding is that function at every parameter, and what
follows from it: the order of the entries and entries of no parameter do not matter, nulls are held
by parameters alone that may be null, and values are of the declared target.

The step from one to the other is `accept_initialValue`. Binding is lenient and falls back on the
value that a parameter holds; as that is still the initial value when the one entry of the
parameter comes, falling back is the same as not taking the entry at all.
-/

namespace QueryGateway

/-! ### One parameter -/

namespace ParameterDescriptor

/-- **What a parameter holds for the entry under its key.** A null is held if the parameter may be
null; another value if it strictly converts to a value of the target, or no value. -/
def slotFor (p : ParameterDescriptor) : Option RawValue → BoundValue
  | none => p.initialValue
  | some .null => if p.isNullable then .null else p.initialValue
  | some raw =>
    match p.target.rule.strictNullable raw with
    | .ok (some v) => .value v
    | _ => p.initialValue

theorem slotFor_of_isNull {p : ParameterDescriptor} {raw : RawValue} (h : raw.isNull = true) :
    p.slotFor (some raw) = if p.isNullable then .null else p.initialValue := by
  cases raw <;> first | rfl | cases h

theorem slotFor_of_not_isNull {p : ParameterDescriptor} {raw : RawValue} (h : raw.isNull = false) :
    p.slotFor (some raw) =
      match p.target.rule.strictNullable raw with
      | .ok (some v) => .value v
      | _ => p.initialValue := by
  cases raw <;> first | rfl | cases h

/-- A value that is held is what falling back on it gives. -/
theorem value_of_fallback {held : BoundValue} {t : Target} {v : SqlValue}
    (h : held.value?.filter (·.target = t) = some v) : .value v = held := by
  obtain ⟨hv, -⟩ := Option.filter_eq_some_iff.1 h
  cases held with
  | unset => cases hv
  | null => cases hv
  | value w => rw [Option.some.inj hv]

/-- **Falling back on the initial value** is not taking the entry. -/
theorem accept_initialValue (p : ParameterDescriptor) (raw : RawValue) :
    p.accept raw p.initialValue = p.slotFor (some raw) := by
  unfold accept
  -- a null never takes the value, and the fallback is the initial value
  cases hnull : raw.isNull with
  | true => rw [if_pos rfl, slotFor_of_isNull hnull]
  | false =>
    rw [if_neg Bool.false_ne_true, slotFor_of_not_isNull hnull]
    -- both modes read one evaluation: they differ only where it gives no value
    unfold Target.coerce Rule.lenientNullable Rule.strictNullable
    cases hprior : p.initialValue.value?.filter (·.target = p.target) with
    | none => cases p.target.rule.evaluate true raw <;> rfl
    | some v =>
      have hheld := value_of_fallback hprior
      cases p.target.rule.evaluate true raw with
      | value a => rfl
      | absent => exact hheld
      | failed e => exact hheld

theorem initialValue_ne_null {p : ParameterDescriptor} (h : p.isNullable = false) :
    p.initialValue ≠ .null := by
  unfold initialValue
  cases p.defaultValue with
  | some v => exact BoundValue.noConfusion
  | none => simp [h]

theorem initialValue_ne_unset {p : ParameterDescriptor} (h : p.isNullable = true) :
    p.initialValue ≠ .unset := by
  unfold initialValue
  cases p.defaultValue with
  | some v => exact BoundValue.noConfusion
  | none => simp [h]

/-- What a parameter holds is its initial value, a null that it may hold, or a value. -/
theorem slotFor_cases (p : ParameterDescriptor) (entry : Option RawValue) :
    p.slotFor entry = p.initialValue ∨ (p.slotFor entry = .null ∧ p.isNullable = true) ∨
      ∃ v, p.slotFor entry = .value v := by
  -- nothing supplied, a null, or a value that converts or does not
  cases entry with
  | none => exact Or.inl rfl
  | some raw =>
    cases hnull : raw.isNull with
    | true =>
      rw [slotFor_of_isNull hnull]
      cases p.isNullable with
      | true => exact Or.inr (Or.inl ⟨rfl, rfl⟩)
      | false => exact Or.inl rfl
    | false =>
      rw [slotFor_of_not_isNull hnull]
      split
      · exact Or.inr (Or.inr ⟨_, rfl⟩)
      · exact Or.inl rfl

theorem slotFor_ne_null {p : ParameterDescriptor} (h : p.isNullable = false)
    (entry : Option RawValue) : p.slotFor entry ≠ .null := by
  rcases p.slotFor_cases entry with hinit | ⟨-, hnullable⟩ | ⟨v, hv⟩
  · rw [hinit]
    exact initialValue_ne_null h
  · rw [h] at hnullable
    cases hnullable
  · rw [hv]
    exact BoundValue.noConfusion

theorem slotFor_ne_unset {p : ParameterDescriptor} (h : p.isNullable = true)
    (entry : Option RawValue) : p.slotFor entry ≠ .unset := by
  rcases p.slotFor_cases entry with hinit | ⟨hnull, -⟩ | ⟨v, hv⟩
  · rw [hinit]
    exact initialValue_ne_unset h
  · rw [hnull]
    exact BoundValue.noConfusion
  · rw [hv]
    exact BoundValue.noConfusion

end ParameterDescriptor

/-! ### All parameters -/

namespace CommandDescriptor

variable {d : CommandDescriptor}

/-- **Binding, parameter by parameter.** -/
theorem bind_values_eq_slotFor (hd : d.IsWellFormed) {vs : ParameterValues} (h : vs.IsNormal) :
    (d.bind vs).values = d.parameters.map fun p => p.slotFor (vs.get? p.key) := by
  rw [bind_values_of_isNormal hd h]
  refine List.map_congr_left fun p _ => ?_
  -- a key is the key of itself
  have hget : vs.get? p.key = vs.get? p.name := by
    rw [ParameterValues.get?, ParameterValues.get?, ParameterDescriptor.key,
      parameterKey_parameterKey]
  rw [hget]
  cases vs.get? p.name with
  | none => rfl
  | some raw => exact p.accept_initialValue raw

/-- The name of a parameter leads to a parameter. -/
theorem isSome_position?_key {p : ParameterDescriptor} (hp : p ∈ d.parameters) :
    (d.position? p.key).isSome = true := by
  rw [position?, List.findIdx?_isSome, List.any_eq_true]
  exact ⟨p, hp, decide_eq_true (parameterKey_parameterKey p.name).symm⟩

/-- Values with the same entries for the parameters are found alike under their keys. -/
theorem get?_key_congr {vs ws : ParameterValues} (hv : vs.IsNormal) (hw : ws.IsNormal)
    (h : ∀ e, (d.position? e.1).isSome = true → (e ∈ ws.entries ↔ e ∈ vs.entries))
    {p : ParameterDescriptor} (hp : p ∈ d.parameters) : ws.get? p.key = vs.get? p.key := by
  refine Option.ext fun raw => ?_
  have hkey : parameterKey p.key = p.key := parameterKey_parameterKey p.name
  rw [hw.get?_eq_some_iff, hv.get?_eq_some_iff, hkey]
  exact h (p.key, raw) (isSome_position?_key hp)

end CommandDescriptor

/-- **Binding is local.** There is a slot for each parameter, in declared order, and the parameter
and the entry under its key decide it. So two collections of values with the same entries for the
parameters are bound alike, in whatever order they have them and whatever else they have. A
parameter holds null, or nothing, only as it may, and values of its declared target alone. -/
theorem bind_local {source : String} {d : CommandDescriptor}
    (h : CommandDescriptor.compile source = .ok d) {vs : ParameterValues} (hvs : vs.Reachable) :
    (d.bind vs).values = (d.parameters.map fun p => p.slotFor (vs.get? p.key)) ∧
    (∀ ws : ParameterValues, ws.Reachable →
      (∀ e, (d.position? e.1).isSome = true → (e ∈ ws.entries ↔ e ∈ vs.entries)) →
      (d.bind ws).values = (d.bind vs).values) ∧
    ∀ slot ∈ (d.bind vs).slots,
      (slot.1.isNullable = false → slot.2 ≠ .null) ∧
      (slot.1.isNullable = true → slot.2 ≠ .unset) ∧
      ∀ v, slot.2 = .value v → v.target = slot.1.target := by
  have hd : d.IsWellFormed := isWellFormed_of_compile h
  have hvalues := CommandDescriptor.bind_values_eq_slotFor hd hvs.isNormal
  refine ⟨hvalues, ?_, ?_⟩
  · -- each slot is decided by the entry under one key, and the two collections agree there
    intro ws hws hentries
    rw [hvalues, CommandDescriptor.bind_values_eq_slotFor hd hws.isNormal]
    refine List.map_congr_left fun p hp => ?_
    rw [CommandDescriptor.get?_key_congr hvs.isNormal hws.isNormal hentries hp]
  · -- a slot is a parameter with what is chosen for it, so the facts about one parameter apply
    intro slot hslot
    have htarget := CommandDescriptor.bind_fits hd vs slot hslot
    have hslots : (d.bind vs).slots = d.parameters.map fun p => (p, p.slotFor (vs.get? p.key)) := by
      rw [BoundCommand.slots, hvalues]
      exact List.map_prod_left_eq_zip.symm
    rw [hslots] at hslot
    obtain ⟨p, -, rfl⟩ := List.mem_map.1 hslot
    exact ⟨fun hp => p.slotFor_ne_null hp _, fun hp => p.slotFor_ne_unset hp _, htarget⟩

/-! ### An order -/

/-- A document with a number that is never null and a day that may be. -/
def orderDocument : String :=
  "<Command><Parameters><Parameter name='@id' type='Int' value='7' isNullable='false'/>" ++
    "<Parameter name='day' type='Date'/></Parameters></Command>"

/-- What the document describes. -/
def orderDescriptor : CommandDescriptor where
  timeoutSeconds := 30
  kind := .text
  text := ""
  parameters :=
    [⟨"@id", .int, .input, false, none, none, none, some (.int 7)⟩,
      ⟨"day", .date, .input, true, none, none, none, none⟩]

/-- A number that does not convert leaves the declared one, a null is held where it may be, and it
makes no difference that the entries come in another order, with one more among them. -/
theorem bind_local_order :
    CommandDescriptor.compile orderDocument = .ok orderDescriptor ∧
      let vs := ParameterValues.ofList [("ID", .text "seven"), ("@Day", .null)]
      let ws := ParameterValues.ofList [("day", .null), ("night", .int 1), ("id", .text "seven")]
      (orderDescriptor.bind vs).values = [.value (.int 7), .null] ∧
      (orderDescriptor.bind ws).values = (orderDescriptor.bind vs).values ∧
      ∀ slot ∈ (orderDescriptor.bind vs).slots, slot.1.isNullable = false → slot.2 ≠ .null := by
  have hd : CommandDescriptor.compile orderDocument = .ok orderDescriptor :=
    except_eq_ok_of_toOption (by decide +kernel)
  obtain ⟨hvalues, hcongr, hslots⟩ := bind_local hd
    (ParameterValues.reachable_ofList [("ID", .text "seven"), ("@Day", .null)])
  -- the order and the extra entry do not matter
  refine ⟨hd, ?_, hcongr _ (ParameterValues.reachable_ofList _) ?_,
    fun slot hslot => (hslots slot hslot).1⟩
  · rw [hvalues]
    decide +kernel
  · have hv : (ParameterValues.ofList [("ID", .text "seven"), ("@Day", .null)]).entries =
        [("id", .text "seven"), ("day", .null)] := by decide +kernel
    have hw : (ParameterValues.ofList
        [("day", .null), ("night", .int 1), ("id", .text "seven")]).entries =
        [("day", .null), ("night", .int 1), ("id", .text "seven")] := by decide +kernel
    intro e he
    rw [hv, hw]
    simp only [List.mem_cons, List.not_mem_nil, or_false]
    constructor
    · -- of the entries of the second collection, the one of no parameter is excluded by its key
      rintro (hday | rfl | hid)
      · exact Or.inr hday
      · revert he
        decide +kernel
      · exact Or.inl hid
    · rintro (hid | hday)
      · exact Or.inr (Or.inr hid)
      · exact Or.inl hday

end QueryGateway
