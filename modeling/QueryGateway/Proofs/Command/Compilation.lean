import QueryGateway.Command.Document

/-!
# What compiling guarantees

Binding and building rely on facts about a descriptor that they do not check again. They are
collected in `CommandDescriptor.IsWellFormed`, and `isWellFormed_of_compile` says that every
descriptor that comes out of a document has them:

* no two parameters have one key, so that a name leads to at most one of them;
* a declared value has the target of its parameter.

The first is an invariant of the loop over the parameter elements: the keys of the parameters that
are still to come avoid those seen so far (`compileParameters_keys`). The second holds of each
element alone, because a conversion never yields a value of another target (`coerce_target`).
-/

namespace QueryGateway

open Text Xml

/-! ### Chains that may fail -/

/-- Taking apart a chain that succeeds. -/
theorem except_bind_eq_ok {ε α β : Type} {x : Except ε α} {f : α → Except ε β} {b : β}
    (h : x >>= f = .ok b) : ∃ a, x = .ok a ∧ f a = .ok b := by
  cases x with
  | error e => cases h
  | ok a => exact ⟨a, rfl, h⟩

/-- A result is as good as known once its optional value is, which can be decided. -/
theorem except_eq_ok_of_toOption {ε α : Type} {x : Except ε α} {a : α}
    (h : x.toOption = some a) : x = .ok a := by
  cases x with
  | error e => cases h
  | ok b => exact congrArg Except.ok (Option.some.inj h)

/-! ### Conversions and targets -/

/-- A value that is of a target already belongs to it. -/
theorem Target.direct_target {t : Target} {raw : RawValue} {v : SqlValue}
    (h : t.direct raw = some v) : v.target = t := by
  cases t <;>
  · simp only [Target.direct, Option.map_eq_some_iff] at h
    obtain ⟨a, -, rfl⟩ := h
    rfl

/-- A value that converts to a target belongs to it. -/
theorem Target.convert_target {t : Target} {raw : RawValue} {v : SqlValue}
    (h : t.convert raw = some v) : v.target = t := by
  cases t <;>
  · simp only [Target.convert, Option.map_eq_some_iff] at h
    obtain ⟨a, -, rfl⟩ := h
    rfl

/-- **A conversion yields values of its target alone,** whatever was there before. -/
theorem Target.coerce_target {t : Target} {raw : RawValue} {prior : Option SqlValue}
    {v : SqlValue} (h : t.coerce raw prior = some v) : v.target = t := by
  -- the lenient way takes what the evaluation gives, or the value before it
  rw [Target.coerce, Rule.lenientNullable] at h
  split at h
  · next a ha =>
    obtain rfl : a = v := Option.some.inj h
    rw [Rule.evaluate] at ha
    -- the evaluation ends at one of four places, and two of them give a value
    split at ha
    · cases ha
    split at ha
    · next a' hdirect =>
      cases ha
      exact Target.direct_target hdirect
    split at ha
    · cases ha
    split at ha
    · next a' hconvert =>
      cases ha
      exact Target.convert_target hconvert
    · cases ha
  · -- the fallback was filtered by the target
    obtain ⟨-, hv⟩ := Option.filter_eq_some_iff.1 h
    exact of_decide_eq_true hv

/-! ### Parameter elements -/

/-- The declared default goes through the same conversion as a value that is supplied, with nothing
to fall back on. -/
theorem ParameterDescriptor.compile_defaultValue {e : Node} {p : ParameterDescriptor}
    (h : ParameterDescriptor.compile e = .ok p) :
    p.defaultValue = (e.attribute? "value").bind fun s => p.target.coerce (.text s) none := by
  simp only [ParameterDescriptor.compile] at h
  -- an element without a usable name, or with an unknown type, has no parameter
  split at h
  · cases h
  split at h
  · obtain rfl := Except.ok.inj h
    rfl
  split at h
  · obtain rfl := Except.ok.inj h
    rfl
  · cases h

theorem ParameterDescriptor.compile_default_target {e : Node} {p : ParameterDescriptor}
    {v : SqlValue} (h : ParameterDescriptor.compile e = .ok p) (hv : p.defaultValue = some v) :
    v.target = p.target := by
  rw [ParameterDescriptor.compile_defaultValue h] at hv
  obtain ⟨s, -, hs⟩ := Option.bind_eq_some_iff.1 hv
  exact Target.coerce_target hs

/-- One round of the loop over the parameter elements. -/
theorem compileParameters_cons {seen : List String} {e : Node} {rest : List Node}
    {ps : List ParameterDescriptor} (h : compileParameters seen (e :: rest) = .ok ps) :
    ∃ p tail, ParameterDescriptor.compile e = .ok p ∧ p.key ∉ seen ∧
      compileParameters (p.key :: seen) rest = .ok tail ∧ ps = p :: tail := by
  -- the element is compiled first, then its key is compared, then the rest is read with the key
  -- added
  rw [compileParameters] at h
  obtain ⟨p, hp, h⟩ := except_bind_eq_ok h
  split at h
  · cases h
  · next hnew =>
    obtain ⟨tail, htail, h⟩ := except_bind_eq_ok h
    cases h
    exact ⟨p, tail, hp, hnew, htail, rfl⟩

/-- **The invariant of the loop:** the keys to come differ from each other and from those seen. -/
theorem compileParameters_keys {seen : List String} {es : List Node}
    {ps : List ParameterDescriptor} (h : compileParameters seen es = .ok ps) :
    (ps.map (·.key)).Nodup ∧ ∀ p ∈ ps, p.key ∉ seen := by
  induction es generalizing seen ps with
  | nil =>
    cases h
    exact ⟨List.nodup_nil, fun p hp => absurd hp List.not_mem_nil⟩
  | cons e rest ih =>
    obtain ⟨p, tail, -, hnew, htail, rfl⟩ := compileParameters_cons h
    obtain ⟨hnodup, havoid⟩ := ih htail
    refine ⟨?_, ?_⟩
    · -- the key of the head was seen when the rest was read, and the rest avoids what was seen
      rw [List.map_cons, List.nodup_cons]
      refine ⟨?_, hnodup⟩
      intro hmem
      obtain ⟨q, hq, hkey⟩ := List.mem_map.1 hmem
      exact havoid q hq (by rw [hkey]; exact List.mem_cons_self)
    · intro q hq
      rcases List.mem_cons.1 hq with rfl | hq
      · exact hnew
      · exact fun hseen => havoid q hq (List.mem_cons_of_mem _ hseen)

/-- Every default in the list is of its parameter's type, which the loop does not touch. -/
theorem compileParameters_default {seen : List String} {es : List Node}
    {ps : List ParameterDescriptor} (h : compileParameters seen es = .ok ps) :
    ∀ p ∈ ps, ∀ v, p.defaultValue = some v → v.target = p.target := by
  induction es generalizing seen ps with
  | nil =>
    cases h
    exact fun p hp => absurd hp List.not_mem_nil
  | cons e rest ih =>
    obtain ⟨p, tail, hp, -, htail, rfl⟩ := compileParameters_cons h
    intro q hq v hv
    rcases List.mem_cons.1 hq with rfl | hq
    · exact ParameterDescriptor.compile_default_target hp hv
    · exact ih htail q hq v hv

/-! ### Descriptors -/

/-- **What binding and building rely on.** Compiling guarantees it, so that neither has to check a
command again. -/
structure CommandDescriptor.IsWellFormed (d : CommandDescriptor) : Prop where
  /-- No two parameters have one key. -/
  keys_nodup : (d.parameters.map (·.key)).Nodup
  /-- A declared value has the target of its parameter. -/
  default_target : ∀ p ∈ d.parameters, ∀ v, p.defaultValue = some v → v.target = p.target

/-- No two parameters have the key of one name. -/
theorem CommandDescriptor.position?_eq_some_iff {d : CommandDescriptor} (hd : d.IsWellFormed)
    {name : String} {i : Nat} :
    d.position? name = some i ↔ ∃ p, d.parameters[i]? = some p ∧ p.key = parameterKey name := by
  rw [CommandDescriptor.position?, List.findIdx?_eq_some_iff_getElem]
  refine ⟨?_, ?_⟩
  · -- a place that is found has the key, and the key there identifies the parameter
    rintro ⟨hi, hkey, -⟩
    exact ⟨d.parameters[i], List.getElem?_eq_getElem hi, of_decide_eq_true hkey⟩
  · rintro ⟨p, hp, hkey⟩
    obtain ⟨hi, rfl⟩ := List.getElem?_eq_some_iff.1 hp
    refine ⟨hi, decide_eq_true hkey, ?_⟩
    intro j hj hsame
    -- an earlier parameter of that key would have the key twice
    have hne :=
      List.pairwise_iff_getElem.1 hd.keys_nodup j i (by simp; omega) (by simpa using hi) hj
    rw [List.getElem_map, List.getElem_map] at hne
    exact hne ((of_decide_eq_true hsame).trans hkey.symm)

theorem isWellFormed_of_compileRoot {root : Node} {d : CommandDescriptor}
    (h : CommandDescriptor.compileRoot root = .ok d) : d.IsWellFormed := by
  simp only [CommandDescriptor.compileRoot] at h
  split at h
  · cases h
  obtain ⟨parameters, hps, h⟩ := except_bind_eq_ok h
  cases h
  exact ⟨(compileParameters_keys hps).1, compileParameters_default hps⟩

/-- **Descriptors of documents are well formed.** -/
theorem isWellFormed_of_compile {source : String} {d : CommandDescriptor}
    (h : CommandDescriptor.compile source = .ok d) : d.IsWellFormed := by
  rw [CommandDescriptor.compile] at h
  split at h
  · exact isWellFormed_of_compileRoot h
  · cases h

end QueryGateway
