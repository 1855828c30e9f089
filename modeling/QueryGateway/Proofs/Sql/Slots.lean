import QueryGateway.Proofs.Command.Binding
import QueryGateway.Sql.Statement

/-!
# Slots

What travels for the parameters of a command is decided before any statement is written: `bindSlots`
either fails at the first parameter that needs a value and has none, or gives one slot for each
parameter. One round of it is taken apart by `bindSlots_cons_of_isSupplied` and its opposite. A slot
is filled exactly for the parameters that travel, and what fills it has the target of its parameter
(`bindSlots_targets`).
-/

namespace QueryGateway.Sql

/-- What travels for a parameter that holds a value, null or nothing. Which it is depends on the
direction first. -/
def slotOf (slot : ParameterDescriptor × BoundValue) : Option BindValue :=
  if slot.1.direction.isBound then BindValue.ofBound? slot.1.target slot.2 else none

/-- Whether a parameter that travels has something to travel with. One that does not travel needs
nothing. -/
def IsSupplied (slot : ParameterDescriptor × BoundValue) : Prop :=
  slot.1.direction.isBound = true → slot.2 ≠ .unset

theorem BindValue.ofBound?_eq_none_iff {t : Target} {held : BoundValue} :
    BindValue.ofBound? t held = none ↔ held = .unset := by
  cases held <;> simp [BindValue.ofBound?]

/-- What travels for a parameter that is supplied. -/
theorem slotOf_isSome {slot : ParameterDescriptor × BoundValue} (h : IsSupplied slot) :
    (slotOf slot).isSome = slot.1.direction.isBound := by
  rw [slotOf]
  split
  · next hb =>
    rw [hb]
    cases hv : BindValue.ofBound? slot.1.target slot.2 with
    | none => exact absurd (BindValue.ofBound?_eq_none_iff.1 hv) (h hb)
    | some v => rfl
  · next hb =>
    rw [Bool.of_not_eq_true hb]
    rfl

/-- One round of `bindSlots`, when the parameter has what it needs. -/
theorem bindSlots_cons_of_isSupplied {slot : ParameterDescriptor × BoundValue}
    {rest : List (ParameterDescriptor × BoundValue)} (h : IsSupplied slot) :
    bindSlots (slot :: rest) = (bindSlots rest).map (slotOf slot :: ·) := by
  obtain ⟨p, held⟩ := slot
  rw [bindSlots]
  by_cases hb : p.direction.isBound = true
  · rw [if_pos hb, slotOf, if_pos hb]
    cases hv : BindValue.ofBound? p.target held with
    | none => exact absurd (BindValue.ofBound?_eq_none_iff.1 hv) (h hb)
    | some v => cases bindSlots rest <;> rfl
  · rw [if_neg hb, slotOf, if_neg hb]
    cases bindSlots rest <;> rfl

/-- One round of `bindSlots`, when the parameter lacks what it needs. -/
theorem bindSlots_cons_of_not_isSupplied {slot : ParameterDescriptor × BoundValue}
    {rest : List (ParameterDescriptor × BoundValue)} (h : ¬ IsSupplied slot) :
    bindSlots (slot :: rest) = .error (.missingValue slot.1.name) := by
  obtain ⟨p, held⟩ := slot
  rw [IsSupplied, Classical.not_imp, Classical.not_not] at h
  obtain ⟨hb, hunset⟩ := h
  change p.direction.isBound = true at hb
  change held = .unset at hunset
  rw [bindSlots, if_pos hb, hunset]
  rfl

/-- **With all that is needed, there is one slot for each parameter.** -/
theorem bindSlots_of_isSupplied {slots : List (ParameterDescriptor × BoundValue)}
    (h : ∀ slot ∈ slots, IsSupplied slot) : bindSlots slots = .ok (slots.map slotOf) := by
  induction slots with
  | nil => rfl
  | cons slot rest ih =>
    rw [bindSlots_cons_of_isSupplied (h slot List.mem_cons_self),
      ih fun s hs => h s (List.mem_cons_of_mem _ hs)]
    rfl

/-- Slots come about only if nothing is lacking. -/
theorem isSupplied_of_bindSlots {slots : List (ParameterDescriptor × BoundValue)}
    {out : List (Option BindValue)} (h : bindSlots slots = .ok out) :
    ∀ slot ∈ slots, IsSupplied slot := by
  induction slots generalizing out with
  | nil => exact fun slot hs => absurd hs List.not_mem_nil
  | cons slot rest ih =>
    -- a round that lacks something fails whatever follows, so the head has to be supplied
    by_cases hsup : IsSupplied slot
    · rw [bindSlots_cons_of_isSupplied hsup] at h
      cases hrest : bindSlots rest with
      | error e => rw [hrest] at h; cases h
      | ok tail =>
        intro s hs
        rcases List.mem_cons.1 hs with rfl | hs
        · exact hsup
        · exact ih hrest s hs
    · rw [bindSlots_cons_of_not_isSupplied hsup] at h
      cases h

/-- The slots are those of the parameters, one by one. -/
theorem eq_map_slotOf_of_bindSlots {slots : List (ParameterDescriptor × BoundValue)}
    {out : List (Option BindValue)} (h : bindSlots slots = .ok out) : out = slots.map slotOf := by
  rw [bindSlots_of_isSupplied (isSupplied_of_bindSlots h)] at h
  exact (Except.ok.inj h).symm

/-- **Only what travels is looked at.** -/
theorem bindSlots_congr {ps : List ParameterDescriptor} {f g : ParameterDescriptor → BoundValue}
    (h : ∀ p ∈ ps, p.direction.isBound = true → f p = g p) :
    bindSlots (ps.map fun p => (p, f p)) = bindSlots (ps.map fun p => (p, g p)) := by
  induction ps with
  | nil => rfl
  | cons p rest ih =>
    rw [List.map_cons, List.map_cons, bindSlots, bindSlots,
      ih fun q hq => h q (List.mem_cons_of_mem _ hq)]
    by_cases hb : p.direction.isBound = true
    · rw [h p List.mem_cons_self hb]
    · rw [if_neg hb, if_neg hb]

/-! ### Targets -/

/-- The targets of what travels for the parameters. -/
def slotTargets (slots : List (Option BindValue)) : List (Option Target) :=
  slots.map (·.map BindValue.target)

theorem slotTargets_getElem?_join (slots : List (Option BindValue)) (i : Nat) :
    (slotTargets slots)[i]?.join = slots[i]?.join.map BindValue.target := by
  rw [slotTargets, List.getElem?_map]
  cases slots[i]? <;> rfl

/-- What travels has the declared target of its parameter: a null has it by declaration, and a value
because the slot holds only such values. -/
theorem slotOf_target {slot : ParameterDescriptor × BoundValue} (hfit : slot.2.Fits slot.1.target)
    (hsup : IsSupplied slot) :
    (slotOf slot).map BindValue.target =
      if slot.1.direction.isBound then some slot.1.target else none := by
  obtain ⟨p, held⟩ := slot
  -- a parameter that is not bound has no slot to send
  rw [slotOf]
  split
  · next hb =>
    cases held with
    | unset => exact absurd rfl (hsup hb)
    -- a null travels under the declared target, a value under its own
    | null => rfl
    | value v => exact congrArg some (hfit v rfl)
  · rfl

/-- **The targets of the slots are declared:** values have no say in them. -/
theorem bindSlots_targets {slots : List (ParameterDescriptor × BoundValue)}
    {out : List (Option BindValue)} (hfit : ∀ slot ∈ slots, slot.2.Fits slot.1.target)
    (h : bindSlots slots = .ok out) :
    slotTargets out =
      slots.map fun slot => if slot.1.direction.isBound then some slot.1.target else none := by
  have hsup := isSupplied_of_bindSlots h
  rw [eq_map_slotOf_of_bindSlots h, slotTargets, List.map_map]
  exact List.map_congr_left fun slot hs => slotOf_target (hfit slot hs) (hsup slot hs)

end QueryGateway.Sql
