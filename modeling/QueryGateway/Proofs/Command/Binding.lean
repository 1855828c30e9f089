import QueryGateway.Command.Binding
import QueryGateway.Proofs.Command.Compilation
import QueryGateway.Proofs.Command.Values

/-!
# Binding is local

Binding goes through the supplied entries one after the other and changes one slot at a time. Seen
from a parameter, only the entries of its own key matter: `bind_values` gives the slots as a map
over the parameters, and `bind_values_of_isNormal` says that each is decided by the one entry that
`get?` finds under the parameter's name.

It follows that a slot holds values of its parameter's target alone (`bind_fits`): the value it
starts from does, and nothing else gets in without being converted.
-/

namespace QueryGateway

open Text

/-! ### One parameter -/

/-- What a parameter holds after entries are supplied one after the other. Entries with other keys
pass it by. -/
def ParameterDescriptor.heldAfter (p : ParameterDescriptor) (held : BoundValue)
    (entries : List (String × RawValue)) : BoundValue :=
  entries.foldl (fun held e => if parameterKey e.1 = p.key then p.accept e.2 held else held) held

theorem ParameterDescriptor.heldAfter_cons (p : ParameterDescriptor) (held : BoundValue)
    (e : String × RawValue) (rest : List (String × RawValue)) :
    p.heldAfter (if parameterKey e.1 = p.key then p.accept e.2 held else held) rest =
      p.heldAfter held (e :: rest) := by
  rw [heldAfter, heldAfter, List.foldl_cons]

/-- Entries of other keys change nothing. -/
theorem ParameterDescriptor.heldAfter_of_ne {p : ParameterDescriptor} {held : BoundValue}
    {entries : List (String × RawValue)} (h : ∀ e ∈ entries, parameterKey e.1 ≠ p.key) :
    p.heldAfter held entries = held := by
  induction entries with
  | nil => rfl
  | cons e rest ih =>
    rw [← heldAfter_cons, if_neg (h e List.mem_cons_self)]
    exact ih fun e' he' => h e' (List.mem_cons_of_mem e he')

/-- **Of a map, one entry matters:** the one under the parameter's name. -/
theorem ParameterDescriptor.heldAfter_of_isNormal {p : ParameterDescriptor} {held : BoundValue}
    {vs : ParameterValues} (h : vs.IsNormal) :
    p.heldAfter held vs.entries =
      match vs.get? p.name with
      | none => held
      | some raw => p.accept raw held := by
  obtain ⟨entries⟩ := vs
  have hnodup := h.keys_nodup
  have hfixed := h.key_key
  -- on the entries: what `get?` finds under a name is what `find?` finds under its key
  change p.heldAfter held entries =
    match (entries.find? (·.1 = p.key)).map (·.2) with
    | none => held
    | some raw => p.accept raw held
  clear h
  -- the induction needs only that no key stands twice and that each is its own key, so the rest of
  -- the hypothesis was dropped
  induction entries with
  | nil => rfl
  | cons e rest ih =>
    rw [List.map_cons, List.nodup_cons] at hnodup
    have hrest : ∀ e' ∈ rest, parameterKey e'.1 = e'.1 :=
      fun e' he' => hfixed e' (List.mem_cons_of_mem e he')
    have hkey : parameterKey e.1 = e.1 := hfixed e List.mem_cons_self
    -- the entry with the parameter's key is the last one that touches the parameter
    by_cases he : e.1 = p.key
    · -- the keys behind this one differ from it
      rw [← heldAfter_cons, if_pos (hkey.trans he),
        List.find?_cons_of_pos (by simpa using he)]
      refine heldAfter_of_ne fun e' he' heq => hnodup.1 ?_
      rw [he, ← heq, hrest e' he']
      exact List.mem_map_of_mem he'
    · -- an entry with another key touches neither side
      rw [← heldAfter_cons, if_neg fun h => he (hkey.symm.trans h),
        List.find?_cons_of_neg (by simpa using he)]
      exact ih hnodup.2 hrest

/-! ### All parameters -/

/-- Changing the place of a key, in a list that has no key twice, is a map. -/
theorem modify_of_findIdx?_eq_some {α β : Type} {key : α → String} {l : List α}
    (hnodup : (l.map key).Nodup) {k : String} {i : Nat}
    (h : l.findIdx? (fun a => key a = k) = some i) (f : α → β) (g : α → β → β) :
    ∃ a, l[i]? = some a ∧
      (l.map f).modify i (g a) = l.map fun a => if k = key a then g a (f a) else f a := by
  induction l generalizing i with
  | nil => cases h
  | cons a rest ih =>
    rw [List.map_cons, List.nodup_cons] at hnodup
    rw [List.findIdx?_cons] at h
    by_cases ha : key a = k
    · -- found at the head; the rest has other keys
      rw [if_pos (by simpa using ha)] at h
      obtain rfl := Option.some.inj h
      have hrest : rest.map f = rest.map fun a => if k = key a then g a (f a) else f a := by
        refine List.map_congr_left fun b hb => (if_neg fun hk => hnodup.1 ?_).symm
        rw [ha, hk]
        exact List.mem_map_of_mem hb
      refine ⟨a, rfl, ?_⟩
      rw [List.map_cons, List.modify_zero_cons, hrest, List.map_cons, if_pos ha.symm]
    · -- behind the head the place is one less, and the head keeps what it has
      rw [if_neg (by simpa using ha)] at h
      obtain ⟨j, hj, rfl⟩ := Option.map_eq_some_iff.1 h
      obtain ⟨b, hb, hmap⟩ := ih hnodup.2 hj
      refine ⟨b, hb, ?_⟩
      rw [List.map_cons, List.modify_succ_cons, hmap, List.map_cons, if_neg fun hk => ha hk.symm]

/-- **One entry supplied** to slots that are a function of the parameters gives slots that are again
one: only the parameter with the key of the entry changes, since no other has that key. -/
theorem CommandDescriptor.supply_map {d : CommandDescriptor} (hd : d.IsWellFormed)
    (f : ParameterDescriptor → BoundValue) (entry : String × RawValue) :
    d.supply (d.parameters.map f) entry =
      d.parameters.map fun p =>
        if parameterKey entry.1 = p.key then p.accept entry.2 (f p) else f p := by
  rw [CommandDescriptor.supply, CommandDescriptor.position?]
  cases hfind : d.parameters.findIdx? fun p => p.key = parameterKey entry.1 with
  | none =>
    -- no parameter of this key: the map changes nothing
    rw [List.findIdx?_eq_none_iff] at hfind
    refine List.map_congr_left fun p hp => (if_neg fun hk => ?_).symm
    exact of_decide_eq_false (hfind p hp) hk.symm
  -- the first place with that key is the only one, so changing it is changing by the key
  | some i =>
    obtain ⟨p, hp, hmap⟩ :=
      modify_of_findIdx?_eq_some hd.keys_nodup hfind f fun p => p.accept entry.2
    simp only [hp]
    exact hmap

/-- **The slots of a bound command,** one for each parameter in declared order. -/
theorem CommandDescriptor.bind_values {d : CommandDescriptor} (hd : d.IsWellFormed)
    (vs : ParameterValues) :
    (d.bind vs).values =
      d.parameters.map fun p => p.heldAfter p.initialValue vs.entries := by
  -- for slots of any content, as the first entry changes what the rest starts from
  have h : ∀ (entries : List (String × RawValue)) (f : ParameterDescriptor → BoundValue),
      entries.foldl d.supply (d.parameters.map f) =
        d.parameters.map fun p => p.heldAfter (f p) entries := by
    intro entries
    induction entries with
    | nil => exact fun f => rfl
    | cons e rest ih =>
      intro f
      rw [List.foldl_cons, supply_map hd, ih]
      exact List.map_congr_left fun p _ => p.heldAfter_cons (f p) e rest
  exact h vs.entries fun p => p.initialValue

/-- The parameters with what they hold. -/
theorem CommandDescriptor.bind_slots {d : CommandDescriptor} (hd : d.IsWellFormed)
    (vs : ParameterValues) :
    (d.bind vs).slots =
      d.parameters.map fun p => (p, p.heldAfter p.initialValue vs.entries) := by
  rw [BoundCommand.slots, bind_values hd]
  exact List.map_prod_left_eq_zip.symm

/-- **A slot is decided by the entry under its parameter's name.** -/
theorem CommandDescriptor.bind_values_of_isNormal {d : CommandDescriptor} (hd : d.IsWellFormed)
    {vs : ParameterValues} (h : vs.IsNormal) :
    (d.bind vs).values = d.parameters.map fun p =>
      match vs.get? p.name with
      | none => p.initialValue
      | some raw => p.accept raw p.initialValue := by
  rw [bind_values hd]
  exact List.map_congr_left fun p _ => ParameterDescriptor.heldAfter_of_isNormal h

/-! ### Targets -/

/-- Whether what a parameter holds belongs to a target. Null and nothing belong to every target. -/
def BoundValue.Fits (held : BoundValue) (t : Target) : Prop :=
  ∀ v, held = .value v → v.target = t

/-- Taking a value keeps what a slot holds of the target's type: a null and the fallback bring no
new value, and what converts is of the target. -/
theorem ParameterDescriptor.accept_fits {p : ParameterDescriptor} {raw : RawValue}
    {held : BoundValue} (h : held.Fits p.target) : (p.accept raw held).Fits p.target := by
  unfold ParameterDescriptor.accept
  split
  · split
    · exact fun v hv => by cases hv
    · exact h
  split
  · next w hw =>
    intro v hv
    obtain rfl : w = v := BoundValue.value.inj hv
    exact Target.coerce_target hw
  · exact h

/-- What a parameter holds after any entries is of its target, if what it started from was. -/
theorem ParameterDescriptor.heldAfter_fits {p : ParameterDescriptor} {held : BoundValue}
    (h : held.Fits p.target) (entries : List (String × RawValue)) :
    (p.heldAfter held entries).Fits p.target := by
  -- each entry is either taken, which keeps this, or belongs to another parameter
  induction entries generalizing held with
  | nil => exact h
  | cons e rest ih =>
    rw [← heldAfter_cons]
    split
    · exact ih (accept_fits h)
    · exact ih h

/-- A parameter starts with a value of its own target: the declared default was converted when the
document was compiled. -/
theorem CommandDescriptor.IsWellFormed.initialValue_fits {d : CommandDescriptor}
    (hd : d.IsWellFormed) {p : ParameterDescriptor} (hp : p ∈ d.parameters) :
    p.initialValue.Fits p.target := by
  intro v hv
  unfold ParameterDescriptor.initialValue at hv
  -- a declared default, or else null or nothing, which are no values
  split at hv
  · next w hw =>
    obtain rfl : w = v := BoundValue.value.inj hv
    exact hd.default_target p hp w hw
  · split at hv <;> cases hv

/-- **Every slot fits its parameter.** -/
theorem CommandDescriptor.bind_fits {d : CommandDescriptor} (hd : d.IsWellFormed)
    (vs : ParameterValues) : ∀ slot ∈ (d.bind vs).slots, slot.2.Fits slot.1.target := by
  intro slot hslot
  rw [bind_slots hd] at hslot
  obtain ⟨p, hp, rfl⟩ := List.mem_map.1 hslot
  exact ParameterDescriptor.heldAfter_fits (hd.initialValue_fits hp) vs.entries

end QueryGateway
