import QueryGateway.Proofs.Catalog.Courses
import QueryGateway.Proofs.Command.Values

/-!
# Mapped questions

The search and the detail are meant to reach databases through the listing alone. A call of the
search is mapped (`Call.SearchesMapped`) when the names that it searches come from the rows of a
listing of the same tenant, asked for earlier among the same calls; a call of the detail
(`Call.DetailsMapped`) when the database that it runs in does, and no abbreviation goes along.

Whatever the search and the detail ask besides the listing is mapped: `SearchCourse.mapped` and
`DetailCourse.mapped`. Both rest on `ChosenCourse.asked`, the one case in which the question is
asked, and on what the choices are made of.
-/

namespace QueryGateway

open Text

namespace Call

/-- Whether the command of a call comes from the file of a name in the root. -/
def Runs (c : Call) (name : String) : Prop :=
  c.source.descriptor.parts = [.name name]

/-- **A listing for a tenant** that the runner answered with rows: asked at the server of the
tenant, in no other database than its own, with the aliases of the tenant alone. -/
structure ListsFor (c : Call) (site : Site) (t : Tenant) (rows : List DatabaseInfo) : Prop where
  question : c.question = .databases
  connection : site.registry.connectionString t = .ok c.target.connectionString
  database : c.target.database = none
  descriptor : site.files.find? Catalog.databasesDescriptor = some c.source.descriptor
  values : c.source.values = Catalog.listingValues t
  rows : site.runner.databases c.target c.command = .ok rows

/-- A listing runs at the connection string of its tenant. -/
theorem ListsFor.target_eq {c : Call} {site : Site} {t : Tenant} {rows : List DatabaseInfo}
    (h : c.ListsFor site t rows) {s : String} (hs : site.registry.connectionString t = .ok s) :
    ⟨s, none⟩ = c.target := by
  have hconnection := h.connection
  rw [hs] at hconnection
  rw [Except.ok.inj hconnection, ← h.database]

/-- **A mapped search:** it runs where the listing did, for names from rows of the listing. -/
def SearchesMapped (c : Call) (site : Site) (t : Tenant) (calls : List Call) : Prop :=
  ∃ listing rows chosen, List.Sublist [listing, c] calls ∧ listing.ListsFor site t rows ∧
    List.Sublist chosen rows ∧ c.target = listing.target ∧
    c.source.values.get? "searchdbs" = some (.text (join ";" (chosen.map DatabaseInfo.name)))

/-- **A mapped detail:** it runs where the listing did, in the database of one of its rows. -/
def DetailsMapped (c : Call) (site : Site) (t : Tenant) (calls : List Call) : Prop :=
  ∃ listing rows, ∃ db ∈ rows, List.Sublist [listing, c] calls ∧ listing.ListsFor site t rows ∧
    c.target = { listing.target with database := some db.name } ∧
    c.source.values.get? "objdb" = none

end Call

namespace Catalog

variable {site : Site} {cache : DescriptorCache} {t : Tenant}

/-! ### Choices -/

/-- What the search chooses is the names of some rows, and there are some. -/
theorem searchChoice_eq_some {target target' : ConnectionTarget} {values values' : ParameterValues}
    {rows : List DatabaseInfo} (h : searchChoice target values rows = some (target', values')) :
    target' = target ∧ rows ≠ [] ∧ ∃ chosen : List DatabaseInfo, List.Sublist chosen rows ∧
      values'.get? "searchdbs" = some (.text (join ";" (chosen.map DatabaseInfo.name))) := by
  -- only a choice that is not refused comes out, and its names are those of the rows that were kept
  rw [searchChoice] at h
  split at h
  · cases h
  next hnames =>
  obtain ⟨rfl, rfl⟩ := Prod.mk.inj (Option.some.inj h)
  refine ⟨rfl, ?_, _, List.filter_sublist, ParameterValues.get?_insert_self _ _ _⟩
  rintro rfl
  -- no rows give no names, and joining none gives a blank
  refine hnames ?_
  change isAllBlank "" = true
  decide

/-- What the detail chooses is the name of one row, which is not blank. -/
theorem detailChoice_eq_some {target target' : ConnectionTarget} {values values' : ParameterValues}
    {rows : List DatabaseInfo} (h : detailChoice target values rows = some (target', values')) :
    ∃ db ∈ rows, isAllBlank db.name = false ∧
      target' = { target with database := some db.name } ∧ values'.get? "objdb" = none := by
  -- the choice is a row found by its abbreviation, with its name if that is not blank
  obtain ⟨name, hname, hchoice⟩ := Option.map_eq_some_iff.1 h
  obtain ⟨rfl, rfl⟩ := Prod.mk.inj hchoice
  obtain ⟨hfound, hblank⟩ := Option.filter_eq_some_iff.1 hname
  obtain ⟨db, hdb, rfl⟩ := Option.map_eq_some_iff.1 hfound
  rw [Bool.not_eq_true'] at hblank
  exact ⟨db, List.mem_of_find?_eq_some hdb, hblank, rfl, ParameterValues.get?_erase_self _ _⟩

/-! ### Calls -/

/-- The calls of a listing are of its own descriptor. -/
theorem ListingCourse.descriptor {c : Course (List DatabaseInfo)} (h : ListingCourse site cache t c)
    {call : Call} (hcall : call ∈ c.calls) :
    site.files.find? databasesDescriptor = some call.source.descriptor := by
  obtain ⟨s, path, -, hpath, -, hlisting⟩ := h.of_mem hcall
  rw [hlisting]
  exact hpath

/-- A listing with rows was asked for. -/
theorem ListingCourse.lists {c : Course (List DatabaseInfo)} (h : ListingCourse site cache t c)
    {rows : List DatabaseInfo} (hrows : c.outcome = .ok rows) (hne : rows ≠ []) :
    ∃ listing, c.calls = [listing] ∧ listing.ListsFor site t rows := by
  -- an absent listing gives no rows, so it is excluded
  cases h with
  | absent h =>
    obtain rfl : [] = rows := Except.ok.inj hrows
    exact absurd rfl hne
  | unprepared s path e hs hpath h => cases hrows
  | asked s path command hs hpath h =>
    exact ⟨_, rfl, rfl, hs, rfl, hpath, rfl, hrows⟩

/-- **The question is asked in one case only:** after a listing, with what was chosen. -/
theorem ChosenCourse.asked
    {choose : List DatabaseInfo → Option (ConnectionTarget × ParameterValues)}
    {refusal : GatewayError} {name : String} {c : Course String}
    (h : ChosenCourse site cache t choose refusal name c) {call : Call} (hcall : call ∈ c.calls) :
    (∃ listing, ListingCourse site cache t listing ∧ call ∈ listing.calls) ∨
      ∃ listing rows, ListingCourse site cache t listing ∧ listing.outcome = .ok rows ∧
        choose rows = some (call.target, call.source.values) ∧ call.question = .firstColumn ∧
        site.files.find? name = some call.source.descriptor ∧
        c.calls = listing.calls ++ [call] := by
  -- three of the four courses ask nothing beyond the listing
  cases h with
  | unlisted listing e hl h => exact Or.inl ⟨listing, hl, hcall⟩
  | refused listing rows hl hrows h => exact Or.inl ⟨listing, hl, hcall⟩
  | fileless listing rows target values hl hrows hchoice h => exact Or.inl ⟨listing, hl, hcall⟩
  | run listing rows target values path c hl hrows hchoice hpath h =>
    rcases List.mem_append.1 hcall with hcall | hcall
    · exact Or.inl ⟨listing, hl, hcall⟩
    · obtain ⟨-, hrun, hcalls⟩ := h.of_mem hcall
      rw [hcalls, hrun]
      exact Or.inr ⟨listing, rows, hl, hrows, hchoice, rfl, hpath, rfl⟩

/-- **What a search asks is the listing or mapped.** -/
theorem SearchCourse.mapped {values : ParameterValues} {c : Course String}
    (h : SearchCourse site cache t values c) {call : Call} (hcall : call ∈ c.calls) :
    site.files.find? databasesDescriptor = some call.source.descriptor ∨
      site.files.find? objectsDescriptor = some call.source.descriptor ∧
        call.SearchesMapped site t c.calls := by
  cases h with
  | unconnected e h => exact absurd hcall List.not_mem_nil
  | unnamed s hs h => exact absurd hcall List.not_mem_nil
  -- the last call of a search comes after a listing with rows, as it could choose nothing otherwise
  | chosen s c hs hnamed h =>
    rcases h.asked hcall with ⟨listing, hl, hcall⟩ | ⟨listing, rows, hl, hrows, hchoice, -, hpath,
      hcalls⟩
    · exact Or.inl (hl.descriptor hcall)
    -- the choice says what is passed on, and the listing where the rows are from
    obtain ⟨htarget, hne, chosen, hchosen, hvalues⟩ := searchChoice_eq_some hchoice
    obtain ⟨asked, hasked, hlists⟩ := hl.lists hrows hne
    refine Or.inr ⟨hpath, asked, rows, chosen, ?_, hlists, hchosen, ?_, hvalues⟩
    · rw [hcalls, hasked]
      exact List.Sublist.refl _
    · rw [htarget]
      exact hlists.target_eq hs

/-- **What a detail asks is the listing or mapped.** -/
theorem DetailCourse.mapped {values : ParameterValues} {c : Course String}
    (h : DetailCourse site cache t values c) {call : Call} (hcall : call ∈ c.calls) :
    site.files.find? databasesDescriptor = some call.source.descriptor ∨
      site.files.find? objectDescriptor = some call.source.descriptor ∧
        call.DetailsMapped site t c.calls := by
  cases h with
  | unconnected e h => exact absurd hcall List.not_mem_nil
  -- the same, with the database of one row as the target
  | chosen s c hs h =>
    rcases h.asked hcall with ⟨listing, hl, hcall⟩ | ⟨listing, rows, hl, hrows, hchoice, -, hpath,
      hcalls⟩
    · exact Or.inl (hl.descriptor hcall)
    obtain ⟨db, hdb, -, htarget, hvalues⟩ := detailChoice_eq_some hchoice
    obtain ⟨asked, hasked, hlists⟩ := hl.lists hrows (List.ne_nil_of_mem hdb)
    refine Or.inr ⟨hpath, asked, rows, db, hdb, ?_, hlists, ?_, hvalues⟩
    · rw [hcalls, hasked]
      exact List.Sublist.refl _
    · rw [htarget, ← hlists.target_eq hs]

end Catalog

end QueryGateway
