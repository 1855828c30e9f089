import Mathlib.Data.List.Dedup
import QueryGateway.Proofs.Settings.Acceptance

/-!
# Which contexts of a document are kept

Two things stand between a context in a document and its tenant. Reading keeps the last member of a
name, without a word about those before it; validation refuses contexts of different names that have
one key. So validation never sees the contexts that reading has dropped, and a document may be
accepted although two members of its contexts have one key, if they have one name as well.

`TenantRegistry.Keeps` says that a registry has every context that is written.
`Settings.keeps_iff` says that the registry of accepted settings does so exactly if the names in the
document differ, and what becomes of the contexts if they do not.
-/

namespace QueryGateway

open Text

namespace Settings

open Json (Tree)

/-! ### Fields -/

/-- The value of the first member that goes by the name of a field. Reading refuses a second one, so
the first is the only one. -/
def fieldValue? (fields : List (List String)) (i : Nat) (members : List (Option String × Tree)) :
    Option Tree :=
  (members.find? fun m => m.1.bind (fieldIndex? fields) = some i).map Prod.snd

/-- **The invariant of reading a record:** a field that has no value yet gets that of the first
member of its name. -/
theorem getElem?_of_collectMembers? {fields : List (List String)}
    {given values : List (Option Tree)} {members : List (Option String × Tree)}
    (h : collectMembers? fields given members = some values) (i : Nat) :
    values[i]? = given[i]?.map fun value => value.or (fieldValue? fields i members) := by
  induction members generalizing given with
  | nil =>
    obtain rfl := Option.some.inj h
    simp [fieldValue?]
  | cons member rest ih =>
    obtain ⟨name, value⟩ := member
    cases name with
    | none => cases h
    | some name =>
      rw [collectMembers?] at h
      cases hindex : fieldIndex? fields name with
      | none =>
        -- a member of no field is passed over
        simp only [hindex] at h
        have hskip :
            fieldValue? fields i ((some name, value) :: rest) = fieldValue? fields i rest := by
          simp [fieldValue?, hindex]
        rw [ih h, hskip]
      | some j =>
        -- a field that has a value already gets no other one, so this one has none yet
        simp only [hindex] at h
        split at h
        next hgiven =>
          rw [ih h]
          -- the field that is asked for is this one, or keeps what it has
          by_cases hij : j = i
          · subst hij
            have hvalue : fieldValue? fields j ((some name, value) :: rest) = some value := by
              simp [fieldValue?, hindex]
            have hlt : j < given.length := (List.getElem?_eq_some_iff.1 hgiven).1
            rw [List.getElem?_set_self hlt, hgiven, Option.map_some, Option.map_some, hvalue]
            rfl
          · have hskip : fieldValue? fields i ((some name, value) :: rest) =
                fieldValue? fields i rest := by
              simp [fieldValue?, hindex, hij]
            rw [List.getElem?_set_ne hij, hskip]
        · cases h

/-- **The members of the contexts,** as they are written among the members of settings: those of the
value of the last field. -/
def contextMembers (members : List (Option String × Tree)) : List (Option String × Tree) :=
  match fieldValue? fieldNames 3 members with
  | some (.object contexts) => contexts
  | _ => []

/-- **The contexts of settings** are those that are written, put one after the other. -/
theorem exists_written_of_ofTree? {members : List (Option String × Tree)} {s : Settings}
    (h : ofTree? (.object members) = some s) :
    ∃ written, (contextMembers members).mapM (member? context?) = some written ∧
      s.contexts = Keyed.putAll Prod.fst [] written := by
  -- the contexts are the field at the last index
  obtain ⟨path, cache, strings, contexts, hfields, -, hcontexts⟩ := exists_fields_of_ofTree? h
  -- what the reader finds there is the first member of the name
  have hvalue : fieldValue? fieldNames 3 members = contexts := by
    have hfield := getElem?_of_collectMembers? hfields 3
    exact (Option.some.inj hfield).symm
  rw [contextMembers, hvalue]
  cases contexts with
  | none =>
    have hnil : [] = s.contexts := Option.some.inj hcontexts
    exact ⟨[], rfl, hnil.symm⟩
  | some t =>
    obtain ⟨members, entries, rfl, hentries, htable⟩ := exists_entries_of_table? hcontexts
    exact ⟨entries, hentries, htable⟩

end Settings

/-! ### Contexts that are kept -/

/-- **A registry keeps the contexts that are written:** no two have one key, each has its tenant,
and its name leads there. -/
structure TenantRegistry.Keeps (r : TenantRegistry) (written : List (String × ContextSettings)) :
    Prop where
  keys : (written.map fun c => contextKey c.1).Nodup
  length : r.tenants.length = written.length
  find? : ∀ c ∈ written, r.find? c.1 = some (.ofContext c.1 c.2)

section

variable {s : Settings} {written : List (String × ContextSettings)}

/-- Validation sees one context of each name that is written. -/
theorem Settings.perm_dedup_of_written (hwritten : s.contexts = Keyed.putAll Prod.fst [] written) :
    (s.contexts.map Prod.fst).Perm (written.map Prod.fst).dedup := by
  have hnil : (([] : List (String × ContextSettings)).map Prod.fst).Nodup := List.nodup_nil
  have hnodup : (s.contexts.map Prod.fst).Nodup := by
    rw [hwritten]
    exact Keyed.nodup_putAll hnil written
  refine (List.perm_ext_iff_of_nodup hnodup (List.nodup_dedup _)).2 fun name => ?_
  rw [hwritten, Keyed.mem_map_key_putAll, List.mem_dedup]
  simp

namespace Settings.IsValid

variable (h : s.IsValid) (hwritten : s.contexts = Keyed.putAll Prod.fst [] written)

include h hwritten

/-- **Contexts of one key have one name,** or else they are refused. -/
theorem name_eq_of_written {c c' : String × ContextSettings} (hc : c ∈ written) (hc' : c' ∈ written)
    (hkey : contextKey c.1 = contextKey c'.1) : c.1 = c'.1 := by
  -- under both names a context has been kept, and the two have one key
  have hkept : ∀ c ∈ written, ∃ d ∈ s.contexts, d.1 = c.1 := by
    intro c hc
    have hmem : c.1 ∈ s.contexts.map Prod.fst := by
      rw [hwritten, Keyed.mem_map_key_putAll]
      exact .inr (List.mem_map_of_mem hc)
    exact List.mem_map.1 hmem
  obtain ⟨d, hd, hname⟩ := hkept c hc
  obtain ⟨d', hd', hname'⟩ := hkept c' hc'
  rw [← hname, ← hname'] at hkey ⊢
  exact congrArg Prod.fst (List.inj_on_of_nodup_map h.keys hd hd' hkey)

/-- **A name leads to the last context of that name.** -/
theorem find?_of_last {before after : List (String × ContextSettings)}
    {c : String × ContextSettings} (hsplit : written = before ++ c :: after)
    (hlast : c.1 ∉ after.map Prod.fst) :
    (TenantRegistry.ofSettings s).find? c.1 = some (.ofContext c.1 c.2) := by
  have hmem : c ∈ s.contexts := by
    rw [hwritten, hsplit]
    exact Keyed.mem_putAll_of_last hlast
  exact (TenantRegistry.find?_ofSettings_eq_some_iff h.keys).2 ⟨h.names c hmem, c, hmem, rfl, rfl⟩

/-- **There is one tenant for each name.** -/
theorem length_tenants_of_written :
    (TenantRegistry.ofSettings s).tenants.length = (written.map Prod.fst).dedup.length := by
  have hperm := (perm_dedup_of_written hwritten).length_eq
  rw [List.length_map] at hperm
  rw [TenantRegistry.tenants_ofSettings h.keys, List.length_map, hperm]

/-- **All contexts are kept** if their names differ, and only then. -/
theorem keeps_iff_of_written :
    (TenantRegistry.ofSettings s).Keeps written ↔ (written.map Prod.fst).Nodup := by
  constructor
  · -- as many tenants as names means that no name is there twice
    intro hkeeps
    have hlength : (written.map Prod.fst).dedup.length = (written.map Prod.fst).length := by
      rw [← h.length_tenants_of_written hwritten, hkeeps.length, List.length_map]
    rw [← List.dedup_eq_self]
    exact (List.dedup_sublist _).eq_of_length hlength
  · intro hnames
    refine ⟨?_, ?_, fun c hc => ?_⟩
    · -- contexts of one key have one name, and so are one context
      refine List.Nodup.map_on (fun c hc c' hc' hkey => ?_) hnames.of_map
      exact List.inj_on_of_nodup_map hnames hc hc' (h.name_eq_of_written hwritten hc hc' hkey)
    · -- each name is there once, so there are as many tenants as contexts
      rw [h.length_tenants_of_written hwritten, List.dedup_eq_self.2 hnames, List.length_map]
    · -- and behind a context there is no other one of its name
      obtain ⟨before, after, hsplit⟩ := List.append_of_mem hc
      refine h.find?_of_last hwritten hsplit ?_
      rw [hsplit, List.map_append, List.map_cons] at hnames
      exact (List.nodup_cons.1 hnames.of_append_right).1

end Settings.IsValid

end

/-- **The contexts of a document are kept exactly if their names differ.** Of settings that are
accepted, contexts with one key have one name. Each name that is written has one tenant, which is
that of the last context of the name. -/
theorem Settings.keeps_iff {text : String} {members : List (Option String × Json.Tree)}
    (hdocument : Json.parse? text = some (.object members)) {s : Settings}
    (h : Settings.parse text = .ok s) :
    ∃ written, (contextMembers members).mapM (member? context?) = some written ∧
      let r := TenantRegistry.ofSettings s
      (r.Keeps written ↔ (written.map Prod.fst).Nodup) ∧
      (∀ c ∈ written, ∀ c' ∈ written, contextKey c.1 = contextKey c'.1 → c.1 = c'.1) ∧
      r.tenants.length = (written.map Prod.fst).dedup.length ∧
      ∀ before c after, written = before ++ c :: after → c.1 ∉ after.map Prod.fst →
        r.find? c.1 = some (.ofContext c.1 c.2) := by
  obtain ⟨tree, htree, hsettings, hvalid⟩ := exists_tree_of_parse h
  rw [hdocument] at htree
  obtain rfl := Option.some.inj htree
  obtain ⟨written, hread, hwritten⟩ := exists_written_of_ofTree? hsettings
  refine ⟨written, hread, hvalid.keeps_iff_of_written hwritten, ?_, ?_, ?_⟩
  · intro c hc c' hc' hkey
    exact hvalid.name_eq_of_written hwritten hc hc' hkey
  · exact hvalid.length_tenants_of_written hwritten
  · intro before c after hsplit hlast
    exact hvalid.find?_of_last hwritten hsplit hlast

/-! ### One name twice -/

/-- Settings whose contexts have one name. -/
def oneNameTwice : String :=
  "\x7b\"contexts\": \x7b\"dev\": \x7b\"name\": \"A\"\x7d, \"dev\": \x7b\"name\": \"B\"\x7d\x7d\x7d"

/-- The two contexts that are written. -/
def oneNameContexts : List (String × ContextSettings) :=
  [("dev", ⟨"A", "", []⟩), ("dev", ⟨"B", "", []⟩)]

/-- What is left of the contexts. -/
def oneNameSettings : Settings where
  contexts := [("dev", ⟨"B", "", []⟩)]

/-- The members of an object. -/
def Json.Tree.members? : Json.Tree → Option (List (Option String × Json.Tree))
  | .object members => some members
  | _ => none

/-- The settings are accepted, and of the two contexts the first one is lost. -/
theorem Settings.keeps_iff_oneNameTwice :
    ∃ members, Json.parse? oneNameTwice = some (.object members) ∧
      Settings.parse oneNameTwice = .ok oneNameSettings ∧
      (contextMembers members).mapM (member? context?) = some oneNameContexts ∧
      let r := TenantRegistry.ofSettings oneNameSettings
      ¬ r.Keeps oneNameContexts ∧ r.tenants.length = 1 ∧
      r.find? "dev" = some ⟨"dev", "B", "", []⟩ := by
  -- the reading of the settings and of the document itself are both computed
  have h : Settings.parse oneNameTwice = .ok oneNameSettings :=
    except_eq_ok_of_toOption (by decide +kernel)
  have hwritten : (((Json.parse? oneNameTwice).bind Json.Tree.members?).bind fun members =>
      (contextMembers members).mapM (member? context?)) = some oneNameContexts := by decide +kernel
  obtain ⟨members, hmembers, hread⟩ := Option.bind_eq_some_iff.1 hwritten
  obtain ⟨tree, htree, hobject⟩ := Option.bind_eq_some_iff.1 hmembers
  cases tree with
  | object members' =>
    obtain rfl := Option.some.inj hobject
    obtain ⟨written, hread', hkeeps, -, hlength, hlast⟩ := Settings.keeps_iff htree h
    rw [hread] at hread'
    obtain rfl := Option.some.inj hread'
    -- the theorem gives the rest, from the names of the document alone
    refine ⟨_, htree, h, hread, fun hall => ?_, ?_, ?_⟩
    · exact absurd (hkeeps.1 hall) (by decide)
    · rw [hlength]
      decide
    · exact hlast [("dev", ⟨"A", "", []⟩)] ("dev", ⟨"B", "", []⟩) [] rfl List.not_mem_nil
  | _ => cases hobject

end QueryGateway
