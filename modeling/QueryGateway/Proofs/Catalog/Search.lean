import QueryGateway.Proofs.Catalog.Mapping
import QueryGateway.Proofs.Command.Compilation
import QueryGateway.Proofs.Text.Split

/-!
# What a search searches

A search names databases by items with semicolons between them (`IsRequested`). It runs over the
listed databases whose abbreviation is one of the items (`IsWanted`): their names, in the order of
the listing, take the place of the items under `searchdbs`, and no other value changes or moves
(`ParameterValues.IsReplaced`).

`search_maps_requested` says so of every search of a tenant with a connection string, and what
happens without items and without names. The courses do the work: what remains is that the parts of
a text between separators are its items (`mem_abbreviations_iff`), so that only the set of the items
counts, and that a value is replaced in its place (`isReplaced_insert`), so that a search forgets in
which form the items came (`insert_insert`).
-/

namespace QueryGateway

open Text Serving

/-! ### Values with one value replaced -/

namespace ParameterValues

/-- **The same values but for the one under a key,** which has its place in both. -/
def IsReplaced (vs ws : ParameterValues) (key : String) (value : RawValue) : Prop :=
  ∃ before old after, vs.entries = before ++ (key, old) :: after ∧ key ∉ before.map (·.1) ∧
    ws.entries = before ++ (key, value) :: after

/-- **Supplying a value again** replaces the one that is there, and nothing else. -/
theorem isReplaced_insert {vs : ParameterValues} {name : String} (h : (vs.get? name).isSome = true)
    (value : RawValue) : vs.IsReplaced (vs.insert name value) (parameterKey name) value := by
  -- a value is there, so its entry splits the others, and no entry before it has the key
  rw [get?, Option.isSome_map, Option.isSome_iff_exists] at h
  obtain ⟨⟨key, old⟩, hfind⟩ := h
  obtain ⟨hkey, before, after, hentries, hbefore⟩ := List.find?_eq_some_iff_append.1 hfind
  obtain rfl : key = parameterKey name := of_decide_eq_true hkey
  have hnew : parameterKey name ∉ before.map (·.1) := by
    rw [List.mem_map]
    rintro ⟨e, he, hkey⟩
    have hne := hbefore e he
    rw [hkey, decide_eq_true rfl] at hne
    cases hne
  refine ⟨before, old, after, hentries, hnew, ?_⟩
  rw [ParameterValues.insert, hentries, put_eq_put]
  exact Keyed.put_append_of_not_mem hnew rfl

/-- The later of two values under one name is what counts. -/
theorem insert_insert (vs : ParameterValues) (name : String) (value later : RawValue) :
    (vs.insert name value).insert name later = vs.insert name later := by
  have hkey : Prod.fst (parameterKey name, value) = Prod.fst (parameterKey name, later) := rfl
  simp only [ParameterValues.insert, put_eq_put, Keyed.put_put hkey]

end ParameterValues

namespace Catalog

/-! ### Requested and wanted -/

/-- **An item of a request for databases:** what stands between semicolons, without the blanks
around it, unless nothing is left. -/
def IsRequested (requested item : String) : Prop :=
  item ≠ "" ∧ ∃ part, IsPart ';' part requested.toList ∧ item = String.ofList (trimChars part)

/-- **A database that is searched:** its abbreviation is an item, apart from the case of ASCII
letters. -/
def IsWanted (requested : String) (db : DatabaseInfo) : Prop :=
  ∃ item, IsRequested requested item ∧ equalAsciiCase item db.abbreviation = true

/-- The items are the trimmed parts between semicolons, those that are empty left out. -/
theorem mem_abbreviations_iff {requested item : String} :
    item ∈ abbreviations requested ↔ IsRequested requested item := by
  simp only [abbreviations, split, List.map_map, List.mem_filter, List.mem_map, mem_splitChars_iff]
  -- a part that stays is not empty, and it is the trimmed text of what stood between two separators
  constructor
  · rintro ⟨⟨part, hpart, rfl⟩, hne⟩
    refine ⟨?_, part, hpart, ?_⟩
    · simpa [String.isEmpty_iff] using hne
    · rw [Function.comp_apply, trim, String.toList_ofList]
  · rintro ⟨hne, part, hpart, rfl⟩
    refine ⟨⟨part, hpart, ?_⟩, ?_⟩
    · rw [Function.comp_apply, trim, String.toList_ofList]
    · simpa [String.isEmpty_iff] using hne

instance (requested : String) : DecidablePred (IsWanted requested) := fun db =>
  decidable_of_iff
    (∃ item ∈ abbreviations requested, equalAsciiCase item db.abbreviation = true) <| by
    simp only [mem_abbreviations_iff, IsWanted]

/-- **The names that are searched** are those of the wanted rows, in their order. -/
theorem mappedNames_eq (requested : String) (rows : List DatabaseInfo) :
    mappedNames (abbreviations requested) rows =
      (rows.filter (IsWanted requested ·)).map (·.name) := by
  rw [mappedNames]
  refine congrArg (List.map _) (List.filter_congr fun db _ => ?_)
  rw [Bool.eq_iff_iff, List.any_eq_true, decide_eq_true_iff]
  simp only [mem_abbreviations_iff, IsWanted]

theorem abbreviations_eq_nil_iff {requested : String} :
    abbreviations requested = [] ↔ ∀ item, ¬ IsRequested requested item := by
  simp only [List.eq_nil_iff_forall_not_mem, mem_abbreviations_iff]

/-- Items are asked for in a value, so there is one. -/
theorem isSome_get?_of_isRequested {values : ParameterValues} {name item : String}
    (h : IsRequested (suppliedText values name) item) : (values.get? name).isSome = true := by
  -- without a value the text is empty, and no item is in it
  cases hvalue : values.get? name with
  | some raw => rfl
  | none =>
    have hempty : abbreviations "" = [] := by decide
    rw [← mem_abbreviations_iff, suppliedText, hvalue] at h
    change item ∈ abbreviations "" at h
    rw [hempty] at h
    exact absurd h List.not_mem_nil

/-! ### Searches -/

/-- Only the set of the items counts for a search. -/
theorem searchObjects_congr {values : ParameterValues} {other : String}
    (h : ∀ item, IsRequested other item ↔ IsRequested (suppliedText values "searchdbs") item)
    (t : Tenant) :
    searchObjects t (values.insert "searchdbs" (.text other)) = searchObjects t values := by
  -- each thing that the search reads of the items depends on their set: whether there is one, and
  -- which rows are wanted
  have hother : suppliedText (values.insert "searchdbs" (.text other)) "searchdbs" = other := by
    rw [suppliedText, ParameterValues.get?_insert_self]
    rfl
  have hempty : (abbreviations other).isEmpty =
      (abbreviations (suppliedText values "searchdbs")).isEmpty := by
    rw [Bool.eq_iff_iff, List.isEmpty_iff, List.isEmpty_iff, abbreviations_eq_nil_iff,
      abbreviations_eq_nil_iff]
    exact forall_congr' fun item => not_congr (h item)
  have hnames : ∀ rows, mappedNames (abbreviations other) rows =
      mappedNames (abbreviations (suppliedText values "searchdbs")) rows := by
    intro rows
    rw [mappedNames_eq, mappedNames_eq]
    refine congrArg (List.map _) (List.filter_congr fun db _ => ?_)
    rw [decide_eq_decide]
    exact exists_congr fun item => and_congr_left' (h item)
  have hchoice : ∀ target, searchChoice target (values.insert "searchdbs" (.text other)) =
      searchChoice target values := by
    intro target
    funext rows
    simp only [searchChoice, hother, hnames, ParameterValues.insert_insert]
  simp only [searchObjects_eq, hother, hempty, hchoice]

/-- **A search runs over exactly the databases that are requested.** Without an item it is refused
before anything is asked. Otherwise the listing is asked for, and the names of the wanted rows take
the place of the items; if they are blank, the search is refused then. Repeating the items or giving
them in another order changes nothing. -/
theorem search_maps_requested {site : Site} {t : Tenant} {s : String}
    (hs : site.registry.connectionString t = .ok s) (cache : DescriptorCache)
    (values : ParameterValues) :
    let requested := suppliedText values "searchdbs"
    let refusal : GatewayError := .badRequest .searchDatabases
    ((∀ item, ¬ IsRequested requested item) →
      (searchObjects t values).Takes site cache ⟨.error refusal, cache, []⟩) ∧
    (∀ path listing rows, (∃ item, IsRequested requested item) →
      site.files.find? databasesDescriptor = some path →
      prepared site.files cache ⟨path, listingValues t⟩ = .ok listing →
      site.runner.databases ⟨s, none⟩ listing = .ok rows →
      let after := (cache.load site.files path).2
      let asked : Call := ⟨.databases, ⟨s, none⟩, listing, ⟨path, listingValues t⟩⟩
      let names := join ";" ((rows.filter (IsWanted requested ·)).map (·.name))
      (isAllBlank names = true →
        (searchObjects t values).Takes site cache ⟨.error refusal, after, [asked]⟩) ∧
      (isAllBlank names = false →
        let supplied := values.insert "searchdbs" (.text names)
        values.IsReplaced supplied "searchdbs" (.text names) ∧
        ∀ path' command, site.files.find? objectsDescriptor = some path' →
          prepared site.files after ⟨path', supplied⟩ = .ok command →
          (searchObjects t values).Takes site cache
            ⟨(site.runner.firstColumn ⟨s, none⟩ command).map String.join,
              (after.load site.files path').2,
              [asked, ⟨.firstColumn, ⟨s, none⟩, command, ⟨path', supplied⟩⟩]⟩)) ∧
    ∀ other, (∀ item, IsRequested other item ↔ IsRequested requested item) →
      searchObjects t (values.insert "searchdbs" (.text other)) = searchObjects t values := by
  intro requested refusal
  refine ⟨fun hnone => ?_, ?_, fun other hitems => searchObjects_congr hitems t⟩
  · -- no item: refused with nothing asked
    exact SearchCourse.takes (.unnamed s hs (abbreviations_eq_nil_iff.2 hnone))
  · rintro path listing rows ⟨item, hitem⟩ hpath hlisting hrows after asked names
    have hnamed : abbreviations requested ≠ [] :=
      List.ne_nil_of_mem (mem_abbreviations_iff.2 hitem)
    -- the listing answers with the rows
    have hl : ListingCourse site cache t
        ⟨site.runner.databases ⟨s, none⟩ listing, after, [asked]⟩ :=
      .asked s path listing hs hpath hlisting
    -- the names decide, and the target is the one of the tenant
    have hchoice : searchChoice ⟨s, none⟩ values rows =
        if isAllBlank names = true then none
        else some (⟨s, none⟩, values.insert "searchdbs" (.text names)) := by
      rw [searchChoice, mappedNames_eq]
    refine ⟨fun hblank => ?_, fun hblank => ?_⟩
    · rw [if_pos hblank] at hchoice
      exact SearchCourse.takes (.chosen s _ hs hnamed (.refused _ rows hl hrows hchoice))
    · rw [if_neg (Bool.eq_false_iff.1 hblank)] at hchoice
      refine ⟨ParameterValues.isReplaced_insert (isSome_get?_of_isRequested hitem) _, ?_⟩
      -- the run starts from the cache that the listing leaves, as before
      intro path' command hpath' hcommand
      refine SearchCourse.takes (.chosen s _ hs hnamed ?_)
      exact .run _ rows _ _ path' _ hl hrows hchoice hpath' (.asked command hcommand)

/-! ### Two of three databases -/

def searchFiles : FileTree :=
  (FileTree.empty.write ⟨[.name "dbdatabases.sqlds"], false, 17⟩ (Utf8.encode
    "<Command><CommandText>CALL f()</CommandText></Command>")).write
  ⟨[.name "dbobjects.jsonds"], false, 16⟩ (Utf8.encode
    ("<Command><Parameters><Parameter name='searchdbs'/></Parameters>" ++
      "<CommandText>CALL g(@searchdbs)</CommandText></Command>"))

def listedRows : List DatabaseInfo :=
  [⟨1, "APP", "app_dev", "2020-01-01", 150⟩, ⟨2, "aux", "aux_dev", "2020-01-01", 150⟩,
    ⟨3, "log", "log_dev", "2020-01-01", 150⟩]

def searchingTenant : Tenant := ⟨"dev", "Development", "DevDb", []⟩

def listingSite : Site :=
  ⟨⟨[searchingTenant], [("DevDb", "postgres://gateway@localhost/app")]⟩, searchFiles,
    fun _ _ => .ok ["[1,", "2]"], fun _ _ => .ok listedRows⟩

/-- Values that ask for two databases, one of them twice, in front of another value. -/
def askedValues : ParameterValues :=
  .ofList [("searchdbs", .text " log;; App ;log"), ("term", .text "x")]

/-- The names come in the order of the listing, in front of the other value as the items did. -/
theorem search_maps_requested_twice :
    listingSite.registry.connectionString searchingTenant = .ok "postgres://gateway@localhost/app" ∧
      let target : ConnectionTarget := ⟨"postgres://gateway@localhost/app", none⟩
      let supplied : ParameterValues :=
        ⟨[("searchdbs", .text "app_dev;log_dev"), ("term", .text "x")]⟩
      (∃ after, (searchObjects searchingTenant askedValues).Takes listingSite ⟨true, [], 0⟩
        ⟨.ok "[1,2]", after,
          [⟨.databases, target, ⟨⟨"CALL f()", []⟩, 30⟩,
              ⟨⟨[.name "dbdatabases.sqlds"], false, 17⟩, listingValues searchingTenant⟩⟩,
            ⟨.firstColumn, target, ⟨⟨"CALL g($1)", [.value (.text "app_dev;log_dev")]⟩, 30⟩,
              ⟨⟨[.name "dbobjects.jsonds"], false, 16⟩, supplied⟩⟩]⟩) ∧
      searchObjects searchingTenant (askedValues.insert "searchdbs" (.text "App;log")) =
        searchObjects searchingTenant askedValues := by
  have hs : listingSite.registry.connectionString searchingTenant =
      .ok "postgres://gateway@localhost/app" := except_eq_ok_of_toOption (by decide)
  -- the items of the two texts are the same but for one that stands twice
  have hitems : abbreviations (suppliedText askedValues "searchdbs") = ["log", "App", "log"] := by
    decide
  have hother : abbreviations "App;log" = ["App", "log"] := by decide
  have hnames : join ";" ((listedRows.filter
      (IsWanted (suppliedText askedValues "searchdbs") ·)).map (·.name)) = "app_dev;log_dev" := by
    decide
  have hsupplied : askedValues.insert "searchdbs" (.text "app_dev;log_dev") =
      ⟨[("searchdbs", .text "app_dev;log_dev"), ("term", .text "x")]⟩ := by decide
  obtain ⟨-, hsearch, hsame⟩ := search_maps_requested hs ⟨true, [], 0⟩ askedValues
  -- the course comes from the theorem; what it needs of the site is evaluated
  refine ⟨hs, ?_, hsame "App;log" fun item => ?_⟩
  · obtain ⟨-, hfound⟩ := hsearch ⟨[.name "dbdatabases.sqlds"], false, 17⟩
      ⟨⟨"CALL f()", []⟩, 30⟩ listedRows
      ⟨"log", mem_abbreviations_iff.1 (by rw [hitems]; exact List.mem_cons_self)⟩
      (by decide +kernel) (except_eq_ok_of_toOption (by decide +kernel)) rfl
    rw [hnames] at hfound
    obtain ⟨-, hfound⟩ := hfound (by decide)
    rw [hsupplied] at hfound
    exact ⟨_, hfound ⟨[.name "dbobjects.jsonds"], false, 16⟩ _ (by decide +kernel)
      (except_eq_ok_of_toOption (by decide +kernel))⟩
  · -- the same items, one of them asked for twice
    rw [← mem_abbreviations_iff, ← mem_abbreviations_iff, hitems, hother]
    simp only [List.mem_cons, List.not_mem_nil, or_false]
    tauto

end Catalog

end QueryGateway
