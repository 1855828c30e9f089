import QueryGateway.Proofs.Settings.Registry
import QueryGateway.Settings.Reader

/-!
# What accepted settings guarantee

Settings are used only after they have been read and validated (`exists_tree_of_parse`).
`Settings.IsAccepted` collects what this guarantees about names, and `isAccepted_of_parse` says that
every text that is read gives such settings: no two contexts have one key apart from case and
blanks, because validation refuses a second one, and no two connection strings have one key, because
a table keeps the last member of a name.

Reading a table is reading its members and putting them one after the other (`tableAfter?_eq`), so
what is there afterwards is known from `Keyed.putAll`. In the registry of accepted settings a tenant
leads to the one connection string of its key (`IsAccepted.connectionString_eq_ok`).
-/

namespace QueryGateway

open Text

/-! ### Tables -/

namespace Settings

open Json (Tree)

/-- **A member of a table,** if it can be read. -/
def member? {α : Type} (decode : Tree → Option α) : Option String × Tree → Option (String × α)
  | (some name, value) => (decode value).map (name, ·)
  | (none, _) => none

theorem putMember_eq_put {α : Type} (key : String) (value : α) (table : List (String × α)) :
    putMember key value table = Keyed.put Prod.fst (key, value) table := by
  induction table with
  | nil => rfl
  | cons entry rest ih => rw [putMember, Keyed.put, ih]

/-- **Reading a table** puts its members one after the other. -/
theorem tableAfter?_eq {α : Type} (decode : Tree → Option α) (table : List (String × α))
    (members : List (Option String × Tree)) :
    tableAfter? decode table members =
      (members.mapM (member? decode)).map (Keyed.putAll Prod.fst table) := by
  induction members generalizing table with
  | nil => rfl
  | cons member rest ih =>
    obtain ⟨name, value⟩ := member
    rw [List.mapM_cons]
    cases name with
    -- a member without a name is refused on both sides
    | none => rfl
    | some key =>
      rw [tableAfter?, member?]
      cases decode value with
      | none => rfl
      | some a =>
        -- the member is put first, and those that follow are put after it
        change tableAfter? decode (putMember key a table) rest = _
        rw [putMember_eq_put, ih]
        cases rest.mapM (member? decode) <;> rfl

/-- A table that is read comes from the members of an object, put one after the other. -/
theorem exists_entries_of_table? {α : Type} {decode : Tree → Option α} {t : Tree}
    {table : List (String × α)} (h : table? decode t = some table) :
    ∃ members entries, t = .object members ∧ members.mapM (member? decode) = some entries ∧
      table = Keyed.putAll Prod.fst [] entries := by
  unfold table? at h
  split at h
  next members =>
    rw [tableAfter?_eq] at h
    obtain ⟨entries, hentries, rfl⟩ := Option.map_eq_some_iff.1 h
    exact ⟨members, entries, rfl, hentries, rfl⟩
  · cases h

/-- **No key comes twice** in a table, which may be missing. -/
theorem nodup_of_fieldOr?_table? {α : Type} {decode : Tree → Option α} {field : Option Tree}
    {table : List (String × α)} (h : fieldOr? (table? decode) (some []) field = some table) :
    (table.map (·.1)).Nodup := by
  have hnil : (([] : List (String × α)).map (·.1)).Nodup := List.nodup_nil
  cases field with
  -- a table that is missing is empty
  | none =>
    obtain rfl := Option.some.inj h
    exact hnil
  | some t =>
    obtain ⟨_, entries, _, _, rfl⟩ := exists_entries_of_table? h
    exact Keyed.nodup_putAll hnil entries

/-- The names of the fields of settings. -/
def fieldNames : List (List String) :=
  [["dataSourcesPath", "DataSourcesPath"], ["cacheDescriptors", "CacheDescriptors"],
    ["connectionStrings", "ConnectionStrings"], ["contexts", "Contexts"]]

/-- The tables of settings are read from the third and the fourth field. -/
theorem exists_fields_of_ofTree? {t : Tree} {s : Settings} (h : ofTree? t = some s) :
    ∃ path cache strings contexts, fields? fieldNames t = some [path, cache, strings, contexts] ∧
      fieldOr? (table? string?) (some []) strings = some s.connectionStrings ∧
      fieldOr? (table? context?) (some []) contexts = some s.contexts := by
  -- the fields are read in order, and those that are no tables do not matter here
  simp only [ofTree?, Option.bind_eq_bind, Option.bind_eq_some_iff] at h
  obtain ⟨fields, hfields, h⟩ := h
  split at h
  next path cache strings contexts =>
    simp only [Option.bind_eq_some_iff] at h
    obtain ⟨_, -, _, -, table, htable, contextTable, hcontexts, hs⟩ := h
    obtain rfl := Option.some.inj hs
    exact ⟨path, cache, strings, contexts, hfields, htable, hcontexts⟩
  · cases h

/-- **What is read has been validated.** -/
theorem exists_tree_of_parse {text : String} {s : Settings} (h : parse text = .ok s) :
    ∃ tree, Json.parse? text = some tree ∧ ofTree? tree = some s ∧ s.IsValid := by
  -- each step that fails ends the reading: the text, the tree, and the validation
  rw [parse] at h
  split at h
  · cases h
  next tree htree =>
  split at h
  · cases h
  next s' hs =>
  obtain ⟨_, hvalid, h⟩ := except_bind_eq_ok h
  obtain rfl : s' = s := Except.ok.inj h
  exact ⟨tree, htree, hs, validate_eq_ok_iff.1 hvalid⟩

/-! ### Accepted settings -/

/-- **What the gateway relies on** about the names in its settings: that each leads to one entry. -/
structure IsAccepted (s : Settings) : Prop where
  /-- No two contexts have one key. -/
  contexts_nodup : (s.contexts.map fun c => contextKey c.1).Nodup
  /-- No two connection strings have one key. -/
  connectionStrings_nodup : (s.connectionStrings.map (·.1)).Nodup

/-- **Settings that are read are accepted.** -/
theorem isAccepted_of_parse {text : String} {s : Settings} (h : parse text = .ok s) :
    s.IsAccepted := by
  obtain ⟨tree, -, htree, hvalid⟩ := exists_tree_of_parse h
  obtain ⟨_, _, _, _, -, hstrings, -⟩ := exists_fields_of_ofTree? htree
  exact ⟨hvalid.keys, nodup_of_fieldOr?_table? hstrings⟩

end Settings

namespace Settings.IsAccepted

variable {s : Settings}

theorem tenants_nodup (h : s.IsAccepted) :
    ((TenantRegistry.ofSettings s).tenants.map Tenant.key).Nodup :=
  TenantRegistry.nodup_tenants_ofSettings h.contexts_nodup

/-- **A tenant runs at the connection string of its key,** which is not blank. -/
theorem connectionString_eq_ok (h : s.IsAccepted) {t : Tenant} {connection : String}
    (ht : (TenantRegistry.ofSettings s).connectionString t = .ok connection) :
    (t.connectionStringKey, connection) ∈ s.connectionStrings ∧ isAllBlank connection = false := by
  rw [TenantRegistry.connectionString] at ht
  -- a tenant without a key has no connection string
  split at ht
  · cases ht
  split at ht
  · next key value hfind =>
    -- what is found is the one entry of the key
    obtain ⟨hmem, rfl⟩ := (Keyed.find?_eq_some_iff h.connectionStrings_nodup).1 hfind
    -- a blank one is refused
    split at ht
    · cases ht
    · next hblank =>
      obtain rfl := Except.ok.inj ht
      exact ⟨hmem, Bool.eq_false_iff.2 hblank⟩
  · cases ht

end Settings.IsAccepted

end QueryGateway
