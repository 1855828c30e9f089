import QueryGateway.Proofs.Text.Blank

/-!
# What validation accepts

Validation goes over the contexts one after the other and stops at the first fault, with the keys
seen so far at hand. What it accepts can be said without an order (`Settings.IsValid`): a place of
the data sources, names that are not blank, keys that differ, and aliases with both their parts.
`validate_eq_ok_iff` says that this is all. Its invariant is `validateContexts_eq_ok_iff`: of the
contexts to come, the keys differ from each other and from those seen.
-/

namespace QueryGateway

open Text

/-- **Settings that can be used,** whatever order their contexts are in: each clause speaks of all
contexts at once, so no order is looked at. -/
structure Settings.IsValid (s : Settings) : Prop where
  dataSourcesPath : isAllBlank s.dataSourcesPath = false
  /-- The contexts have names. -/
  names : ∀ c ∈ s.contexts, isAllBlank c.1 = false
  /-- No two contexts have one key. -/
  keys : (s.contexts.map fun c => contextKey c.1).Nodup
  /-- The aliases are complete. -/
  aliases : ∀ c ∈ s.contexts, ∀ a ∈ c.2.databases,
    isAllBlank a.abbreviation = false ∧ isAllBlank a.name = false

theorem AliasSettings.isComplete_iff {a : AliasSettings} :
    a.isComplete = true ↔ isAllBlank a.abbreviation = false ∧ isAllBlank a.name = false := by
  rw [isComplete, Bool.and_eq_true, Bool.not_eq_true', Bool.not_eq_true']

/-- **The invariant of validation:** the contexts to come are complete, and their keys differ from
each other and from those seen. -/
theorem validateContexts_eq_ok_iff {seen : List String}
    {contexts : List (String × ContextSettings)} :
    validateContexts seen contexts = .ok () ↔
      (contexts.map fun c => contextKey c.1).Nodup ∧
        ∀ c ∈ contexts, contextKey c.1 ∉ seen ∧ isAllBlank c.1 = false ∧
          ∀ a ∈ c.2.databases, a.isComplete = true := by
  induction contexts generalizing seen with
  | nil => simp [validateContexts]
  | cons c rest ih =>
    obtain ⟨name, context⟩ := c
    rw [validateContexts, List.map_cons, List.nodup_cons, List.forall_mem_cons,
      ← List.all_eq_true, ← isEmpty_contextKey]
    dsimp only
    -- the three faults of this context in turn, then the contexts to come
    cases hblank : (contextKey name).isEmpty with
    | true => simp
    | false =>
      rw [if_neg Bool.false_ne_true]
      by_cases hseen : contextKey name ∈ seen
      · simp [hseen]
      rw [if_neg hseen]
      cases hcomplete : context.databases.all AliasSettings.isComplete with
      | false => simp
      | true =>
        rw [if_pos rfl, ih]
        constructor
        · -- the keys of the contexts to come are not among those that will have been seen, this one
          -- included
          rintro ⟨hnodup, hrest⟩
          refine ⟨⟨fun hmem => ?_, hnodup⟩, ⟨hseen, rfl, rfl⟩, fun c hc => ?_⟩
          · obtain ⟨c, hc, hkey⟩ := List.mem_map.1 hmem
            exact (hrest c hc).1 (by rw [hkey]; exact List.mem_cons_self)
          · obtain ⟨hnew, husable⟩ := hrest c hc
            exact ⟨fun hold => hnew (List.mem_cons_of_mem _ hold), husable⟩
        · rintro ⟨⟨hother, hnodup⟩, -, hrest⟩
          refine ⟨hnodup, fun c hc => ?_⟩
          obtain ⟨hnew, husable⟩ := hrest c hc
          refine ⟨fun hmem => ?_, husable⟩
          -- a key that is seen now is that of this context, or was seen before
          rcases List.mem_cons.1 hmem with hkey | hold
          · exact hother (hkey ▸ List.mem_map_of_mem hc)
          · exact hnew hold

/-- **Validation accepts what can be used,** and nothing else. -/
theorem Settings.validate_eq_ok_iff {s : Settings} : s.validate = .ok () ↔ s.IsValid := by
  have hcontexts : validateContexts [] s.contexts = .ok () ↔ _ := validateContexts_eq_ok_iff
  rw [validate]
  constructor
  · -- a blank root is refused before any context is looked at
    intro h
    split at h
    · cases h
    next hpath =>
    obtain ⟨hnodup, husable⟩ := hcontexts.1 h
    refine ⟨Bool.eq_false_iff.2 hpath, fun c hc => (husable c hc).2.1, hnodup, ?_⟩
    intro c hc a ha
    exact AliasSettings.isComplete_iff.1 ((husable c hc).2.2 a ha)
  · -- none has been seen when the contexts are looked at
    intro h
    rw [h.dataSourcesPath, if_neg Bool.false_ne_true]
    refine hcontexts.2 ⟨h.keys, fun c hc => ?_⟩
    refine ⟨List.not_mem_nil, h.names c hc, fun a ha => ?_⟩
    exact AliasSettings.isComplete_iff.2 (h.aliases c hc a ha)

end QueryGateway
