import QueryGateway.Http.Request
import QueryGateway.Proofs.First

/-!
# The context of a request

A request states its context in its query or in a header, and blanks state nothing. So the first
pair of the query counts that is for the context and not blank, and only without one the header.
`Request.IsMeant` says so without a search: it is about what the pairs are, and a blank pair more or
less makes no difference to it (`Request.isMeant_congr`).

The gateway looks for the first pair that is for the context and asks only then whether it is blank.
A blank pair in front of one that states a context hides it (`Request.HidesContext`), and the header
counts although the query states a context. `context_is_meant_iff` says that this is all that goes
wrong: other requests have the context that is meant, and one that hides its context has it only if
the header states the same.
-/

namespace QueryGateway.Http

open Text

/-! ### What is meant -/

/-- **A pair that is for the context,** in any case of its name, whatever its value is. -/
def IsForContext (pair : String × String) : Prop :=
  equalAsciiCase pair.1 "ctx" = true

/-- **A pair that states a context:** it is for the context, and its value is not blank. -/
def StatesContext (pair : String × String) : Prop :=
  IsForContext pair ∧ isAllBlank pair.2 = false

instance : DecidablePred IsForContext := fun pair =>
  inferInstanceAs (Decidable (equalAsciiCase pair.1 "ctx" = true))

instance : DecidablePred StatesContext := fun pair =>
  inferInstanceAs (Decidable (IsForContext pair ∧ isAllBlank pair.2 = false))

namespace Request

/-- **The context in the headers.** The first header of the name states one, unless it cannot be
read or is blank. -/
inductive IsInHeader (r : Request) : Option String → Prop where
  | stated (value : String) (others : List String) (h : r.header "X-API-Context" = value :: others)
      (hread : isReadable value = true) (hblank : isAllBlank value = false) :
      IsInHeader r (some (trim value))
  | unusable (value : String) (others : List String)
      (h : r.header "X-API-Context" = value :: others)
      (hvalue : isReadable value = false ∨ isAllBlank value = true) : IsInHeader r none
  | missing (h : r.header "X-API-Context" = []) : IsInHeader r none

/-- **The context that a request means:** what the first pair states that states one, or else what
the headers state. -/
inductive IsMeant (r : Request) : Option String → Prop where
  | inQuery (pair : String × String) (h : IsFirst StatesContext r.pairs pair) :
      IsMeant r (some (trim pair.2))
  | inHeader (h : ∀ pair ∈ r.pairs, ¬ StatesContext pair) (c : Option String)
      (hc : r.IsInHeader c) : IsMeant r c

/-- **A request that hides its context:** of the pairs for the context the first one is blank, and
another one states a context. -/
def HidesContext (r : Request) : Prop :=
  ∃ blank stated, IsFirst IsForContext r.pairs blank ∧ isAllBlank blank.2 = true ∧
    IsFirst StatesContext r.pairs stated

variable {r r' : Request} {c : Option String} {pair blank : String × String}
  {before after : List (String × String)}

/-! ### The headers -/

theorem headerContext?_of_cons {value : String} {others : List String}
    (h : r.header "X-API-Context" = value :: others) :
    r.headerContext? = if isReadable value then nonBlank? value else none := by
  rw [headerContext?, h]

/-- **The headers state what is read from them.** -/
theorem isInHeader_iff : r.IsInHeader c ↔ c = r.headerContext? := by
  constructor
  · -- by how the header states a context: usable, unusable, or missing
    rintro (⟨value, others, h, hread, hblank⟩ | ⟨value, others, h, hvalue⟩ | h)
    · rw [headerContext?_of_cons h, if_pos hread, nonBlank?, hblank]
      rfl
    · rw [headerContext?_of_cons h, nonBlank?]
      rcases hvalue with hread | hblank
      · simp [hread]
      · simp [hblank]
    · rw [headerContext?, h]
  · -- back: the first value decides, and it states a context iff it is visible text and not blank
    rintro rfl
    cases h : r.header "X-API-Context" with
    | nil =>
      rw [headerContext?, h]
      exact .missing h
    | cons value others =>
      rw [headerContext?_of_cons h, nonBlank?]
      split
      next hread =>
        split
        next hblank => exact .unusable value others h (Or.inr hblank)
        next hblank => exact .stated value others h hread (Bool.eq_false_iff.2 hblank)
      next hread => exact .unusable value others h (Or.inl (Bool.eq_false_iff.2 hread))

theorem headerContext?_congr (h : r'.headers = r.headers) :
    r'.headerContext? = r.headerContext? := by
  rw [headerContext?, headerContext?, header, header, h]

/-! ### The query -/

theorem queryContext?_of_isFirst (h : IsFirst IsForContext r.pairs pair) :
    r.queryContext? = nonBlank? pair.2 := by
  have hfind : r.pairs.find? (fun pair => equalAsciiCase pair.1 "ctx") = some pair :=
    find?_eq_some_iff_isFirst.2 h
  rw [queryContext?, hfind]

theorem queryContext?_of_forall (h : ∀ pair ∈ r.pairs, ¬ IsForContext pair) :
    r.queryContext? = none := by
  have hfind : r.pairs.find? (fun pair => equalAsciiCase pair.1 "ctx") = none :=
    List.find?_eq_none.2 h
  rw [queryContext?, hfind]

theorem context?_of_query (h : r.queryContext? = none) : r.context? = r.headerContext? := by
  rw [context?, h, Option.none_or]

/-- **A hidden context** is not taken from the query. -/
theorem context?_of_hidesContext (h : r.HidesContext) : r.context? = r.headerContext? := by
  obtain ⟨blank, stated, hfirst, hblank, -⟩ := h
  refine context?_of_query ?_
  rw [queryContext?_of_isFirst hfirst, nonBlank?, if_pos hblank]

/-- **A context that is not hidden** is the one that is meant. -/
theorem isMeant_context? (h : ¬ r.HidesContext) : r.IsMeant r.context? := by
  -- nothing in the query is for the context, or the first such pair is blank, or it states one
  by_cases hfor : ∃ pair ∈ r.pairs, IsForContext pair
  · obtain ⟨pair, hfirst⟩ := exists_isFirst_iff.2 hfor
    -- the first pair for the context is blank, or it is the one that states the context
    cases hblank : isAllBlank pair.2 with
    | true =>
      -- blank, and no pair that states one behind it, as the context is not hidden
      have hnone : ∀ stated ∈ r.pairs, ¬ StatesContext stated := by
        intro stated hmem hstates
        obtain ⟨stated, hstated⟩ := exists_isFirst_iff.2 ⟨stated, hmem, hstates⟩
        exact h ⟨pair, stated, hfirst, hblank, hstated⟩
      refine .inHeader hnone _ (isInHeader_iff.2 (context?_of_query ?_))
      rw [queryContext?_of_isFirst hfirst, nonBlank?, if_pos hblank]
    | false =>
      have hcontext : r.context? = some (trim pair.2) := by
        rw [context?, queryContext?_of_isFirst hfirst, nonBlank?, hblank]
        rfl
      rw [hcontext]
      obtain ⟨before, after, hpairs, hpair, hbefore⟩ := hfirst
      exact .inQuery pair
        ⟨before, after, hpairs, ⟨hpair, hblank⟩, fun other hother hstates =>
          hbefore other hother hstates.1⟩
  · -- no pair is for the context, so the header has it
    have hnone : ∀ pair ∈ r.pairs, ¬ IsForContext pair := fun pair hpair hc =>
      hfor ⟨pair, hpair, hc⟩
    refine .inHeader (fun pair hpair hstates => hnone pair hpair hstates.1) _ ?_
    exact isInHeader_iff.2 (context?_of_query (queryContext?_of_forall hnone))

/-! ### One meaning -/

/-- A request means one context at most: the first pair that states one, and the header if none
does. -/
theorem IsMeant.unique {c' : Option String} (h : r.IsMeant c) (h' : r.IsMeant c') : c' = c := by
  cases h with
  | inQuery pair hpair =>
    cases h' with
    | inQuery pair' hpair' => rw [hpair.unique hpair']
    | inHeader hnone => exact absurd hpair.holds (hnone pair hpair.mem)
  | inHeader hnone c hc =>
    cases h' with
    | inQuery pair' hpair' => exact absurd hpair'.holds (hnone pair' hpair'.mem)
    | inHeader _ c' hc' => rw [isInHeader_iff.1 hc, isInHeader_iff.1 hc']

theorem exists_isMeant (r : Request) : ∃ c, r.IsMeant c := by
  by_cases hstates : ∃ pair ∈ r.pairs, StatesContext pair
  · obtain ⟨pair, hpair⟩ := exists_isFirst_iff.2 hstates
    exact ⟨_, .inQuery pair hpair⟩
  · exact ⟨_, .inHeader (fun pair hpair hc => hstates ⟨pair, hpair, hc⟩) _ (isInHeader_iff.2 rfl)⟩

/-! ### Blank pairs -/

/-- **A blank pair more or less** makes no difference to what is meant. -/
theorem isMeant_congr (hpairs : r.pairs = before ++ blank :: after)
    (hblank : isAllBlank blank.2 = true) (hpairs' : r'.pairs = before ++ after)
    (hheaders : r'.headers = r.headers) : r'.IsMeant c ↔ r.IsMeant c := by
  -- a blank pair states nothing, so it is neither the first that does nor one of those before it
  have hnot : ¬ StatesContext blank := fun hstates => by
    rw [hstates.2] at hblank
    cases hblank
  have hfirst : ∀ pair,
      IsFirst StatesContext r'.pairs pair ↔ IsFirst StatesContext r.pairs pair := by
    intro pair
    rw [hpairs, hpairs']
    exact (isFirst_append_cons_iff hnot).symm
  have hheader : ∀ c, r'.IsInHeader c ↔ r.IsInHeader c := fun c => by
    rw [isInHeader_iff, isInHeader_iff, headerContext?_congr hheaders]
  have hnone : (∀ pair ∈ r'.pairs, ¬ StatesContext pair) ↔
      ∀ pair ∈ r.pairs, ¬ StatesContext pair := by
    rw [hpairs, hpairs']
    simp [hnot, or_imp, forall_and]
  constructor
  · rintro (⟨pair, h⟩ | ⟨h, c, hc⟩)
    · exact .inQuery pair ((hfirst pair).1 h)
    · exact .inHeader (hnone.1 h) c ((hheader c).1 hc)
  · rintro (⟨pair, h⟩ | ⟨h, c, hc⟩)
    · exact .inQuery pair ((hfirst pair).2 h)
    · exact .inHeader (hnone.2 h) c ((hheader c).2 hc)

/-- **Behind another pair for the context** a pair is not looked at. -/
theorem context?_congr (hpairs : r.pairs = before ++ blank :: after)
    (hbefore : ∃ pair ∈ before, IsForContext pair) (hpairs' : r'.pairs = before ++ after)
    (hheaders : r'.headers = r.headers) : r'.context? = r.context? := by
  -- the first pair for the context stands before the blank one, in both requests
  obtain ⟨pair, earlier, later, hsplit, hpair, hearlier⟩ := exists_isFirst_iff.2 hbefore
  have hfirst : IsFirst IsForContext r.pairs pair :=
    ⟨earlier, later ++ blank :: after, by simp [hpairs, hsplit], hpair, hearlier⟩
  have hfirst' : IsFirst IsForContext r'.pairs pair :=
    ⟨earlier, later ++ after, by simp [hpairs', hsplit], hpair, hearlier⟩
  rw [context?, context?, queryContext?_of_isFirst hfirst, queryContext?_of_isFirst hfirst',
    headerContext?_congr hheaders]

end Request

/-- **The context is the one that is meant unless it is hidden.** A request means one context, and
its headers state one context or none. A request that hides its context has that of the headers,
and so the one that is meant only if they are the same; any other request has the one that is meant.
A blank pair never changes what is meant, and it does not change the context either if there is
another pair for the context before it. -/
theorem context_is_meant_iff (r : Request) :
    ∃ c inHeader, (∀ c', r.IsMeant c' ↔ c' = c) ∧ (∀ c', r.IsInHeader c' ↔ c' = inHeader) ∧
      (r.HidesContext → r.context? = inHeader) ∧
      (r.context? = c ↔ ¬ r.HidesContext ∨ inHeader = c) ∧
      ∀ before blank after, r.pairs = before ++ blank :: after → isAllBlank blank.2 = true →
        ∀ r' : Request, r'.pairs = before ++ after → r'.headers = r.headers →
          (∀ c', r'.IsMeant c' ↔ c' = c) ∧
          ((∃ pair ∈ before, IsForContext pair) → r'.context? = r.context?) := by
  obtain ⟨c, hc⟩ := r.exists_isMeant
  have hmeant : ∀ c', r.IsMeant c' ↔ c' = c := fun c' =>
    ⟨hc.unique, fun h => h ▸ hc⟩
  refine ⟨c, r.headerContext?, hmeant, fun c' => Request.isInHeader_iff,
    Request.context?_of_hidesContext, ⟨fun h => ?_, fun h => ?_⟩, ?_⟩
  · -- hidden or not is all that the cases are about
    by_cases hhides : r.HidesContext
    · exact Or.inr ((Request.context?_of_hidesContext hhides).symm.trans h)
    · exact Or.inl hhides
  · by_cases hhides : r.HidesContext
    · exact (Request.context?_of_hidesContext hhides).trans (h.resolve_left (not_not_intro hhides))
    · exact (hmeant _).1 (Request.isMeant_context? hhides)
  · -- the blank pair is taken out
    intro before blank after hpairs hblank r' hpairs' hheaders
    refine ⟨fun c' => ?_, fun hbefore => ?_⟩
    · rw [Request.isMeant_congr hpairs hblank hpairs' hheaders, hmeant]
    · exact Request.context?_congr hpairs hbefore hpairs' hheaders

/-! ### A blank pair in front -/

/-- A request with a blank pair for the context before the one that states it. -/
def hiddenRequest : Request where
  method := "GET"
  target := .parse "/api/w?ctx=%20&CTX=+dev&ctx="
  headers := [("x-api-context", "qa")]

/-- The query means one context, and the request runs under that of the header. -/
theorem context_is_meant_iff_hidden :
    hiddenRequest.HidesContext ∧ hiddenRequest.IsMeant (some "dev") ∧
      hiddenRequest.context? = some "qa" := by
  have hpairs : hiddenRequest.pairs = [("ctx", " "), ("CTX", " dev"), ("ctx", "")] := by
    decide +kernel
  have hblank : IsFirst IsForContext hiddenRequest.pairs ("ctx", " ") := by
    rw [hpairs]
    decide
  have hstated : IsFirst StatesContext hiddenRequest.pairs ("CTX", " dev") := by
    rw [hpairs]
    decide
  have hhides : hiddenRequest.HidesContext := ⟨_, _, hblank, by decide, hstated⟩
  -- what is meant comes from the second pair, and what is run from the header
  obtain ⟨c, inHeader, -, hheader, hhidden, -⟩ := context_is_meant_iff hiddenRequest
  have hdev : trim " dev" = "dev" := by decide
  have hqa : trim "qa" = "qa" := by decide
  have hmeant : hiddenRequest.IsMeant (some (trim " dev")) :=
    .inQuery ("CTX", " dev") hstated
  have hstates : hiddenRequest.IsInHeader (some (trim "qa")) :=
    .stated "qa" [] (by decide) (by decide) (by decide)
  rw [hdev] at hmeant
  rw [hqa, hheader] at hstates
  refine ⟨hhides, hmeant, ?_⟩
  rw [hstates]
  exact hhidden hhides

end QueryGateway.Http
