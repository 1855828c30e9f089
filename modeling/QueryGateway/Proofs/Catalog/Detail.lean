import QueryGateway.Proofs.Catalog.Mapping
import QueryGateway.Proofs.Command.Compilation
import QueryGateway.Proofs.First
import QueryGateway.Proofs.Text.Blank

/-!
# Where a detail runs

A detail names its database by an abbreviation, and the first row of the listing that the
abbreviation stands for (`IsMeant`) decides: the detail runs in the database of that row, without
the abbreviation among its values, and it is refused if there is no such row or its name is blank
(`detail_maps_requested`).

A request that names no database is not told apart from one that names the empty abbreviation. So it
is refused unless the listing has a row without an abbreviation, and otherwise it gets the database
of the first such row (`isMeant_iff_of_isAllBlank`).
-/

namespace QueryGateway.Catalog

open Text Serving

/-! ### Rows that are meant -/

/-- **A row that an abbreviation stands for,** apart from the blanks around it and from the case of
ASCII letters. -/
def IsMeant (requested : String) (db : DatabaseInfo) : Prop :=
  equalAsciiCase db.abbreviation (trim requested) = true

instance (requested : String) : DecidablePred (IsMeant requested) := fun db =>
  inferInstanceAs (Decidable (equalAsciiCase db.abbreviation (trim requested) = true))

theorem trim_of_isAllBlank {s : String} (h : isAllBlank s = true) : trim s = "" := by
  rw [trim, trimChars_eq_nil_iff.2 h]

theorem equalAsciiCase_empty_iff {s : String} : equalAsciiCase s "" = true ↔ s = "" := by
  rw [equalAsciiCase, beq_iff_eq, ← String.toList_inj]
  simp

/-- **What is blank stands for the rows without an abbreviation.** -/
theorem isMeant_iff_of_isAllBlank {requested : String} (h : isAllBlank requested = true)
    (db : DatabaseInfo) : IsMeant requested db ↔ db.abbreviation = "" := by
  rw [IsMeant, trim_of_isAllBlank h, equalAsciiCase_empty_iff]

/-- What is not supplied is blank. -/
theorem isAllBlank_suppliedText {values : ParameterValues} {name : String}
    (h : ∀ raw, values.get? name = some raw → isAllBlank raw.display = true) :
    isAllBlank (suppliedText values name) = true := by
  rw [suppliedText]
  cases hvalue : values.get? name with
  | none => decide
  | some raw => exact h raw hvalue

/-! ### The mapped database -/

variable {requested : String} {rows : List DatabaseInfo}

theorem mappedName?_of_forall (h : ∀ db ∈ rows, ¬ IsMeant requested db) :
    mappedName? requested rows = none := by
  rw [mappedName?, List.find?_eq_none.2 h]
  rfl

theorem mappedName?_of_isFirst {db : DatabaseInfo} (h : IsFirst (IsMeant requested) rows db) :
    mappedName? requested rows = if isAllBlank db.name = true then none else some db.name := by
  rw [mappedName?, find?_eq_some_iff_isFirst.2 h, Option.map_some, Option.filter_some]
  cases isAllBlank db.name <;> rfl

/-! ### Details -/

/-- **A detail runs in the database that is meant, or not at all.** The listing is asked for. If no
row is meant, or the first one that is has a blank name, the detail is refused then. Otherwise it
runs in the database of that row, with all values but the abbreviation. Without an abbreviation, or
with a blank one, exactly the rows that have none are meant, and the detail is refused only if there
are none or the name of the first of them is blank. -/
theorem detail_maps_requested {site : Site} {t : Tenant} {s : String}
    (hs : site.registry.connectionString t = .ok s) (cache : DescriptorCache)
    (values : ParameterValues) {path : FilePath} {listing : PreparedCommand}
    {rows : List DatabaseInfo} (hpath : site.files.find? databasesDescriptor = some path)
    (hlisting : prepared site.files cache ⟨path, listingValues t⟩ = .ok listing)
    (hrows : site.runner.databases ⟨s, none⟩ listing = .ok rows) :
    let requested := suppliedText values "objdb"
    let supplied := values.erase "objdb"
    let after := (cache.load site.files path).2
    let asked : Call := ⟨.databases, ⟨s, none⟩, listing, ⟨path, listingValues t⟩⟩
    let isRefused := (objectDetail t values).Takes site cache
      ⟨.error (.badRequest .objectDatabase), after, [asked]⟩
    let runsIn := fun database : String => ∀ path' command,
      site.files.find? objectDescriptor = some path' →
      prepared site.files after ⟨path', supplied⟩ = .ok command →
      (objectDetail t values).Takes site cache
        ⟨(site.runner.firstColumn ⟨s, some database⟩ command).map String.join,
          (after.load site.files path').2,
          [asked, ⟨.firstColumn, ⟨s, some database⟩, command, ⟨path', supplied⟩⟩]⟩
    supplied.entries = values.entries.filter (·.1 ≠ "objdb") ∧
    ((∀ db ∈ rows, ¬ IsMeant requested db) → isRefused) ∧
    (∀ db, IsFirst (IsMeant requested) rows db →
      (isAllBlank db.name = true → isRefused) ∧ (isAllBlank db.name = false → runsIn db.name)) ∧
    ((∀ raw, values.get? "objdb" = some raw → isAllBlank raw.display = true) →
      ∀ db, IsMeant requested db ↔ db.abbreviation = "") := by
  intro requested supplied after asked isRefused runsIn
  -- the listing answers with the rows, and the choice among them decides
  have hl : ListingCourse site cache t ⟨site.runner.databases ⟨s, none⟩ listing, after, [asked]⟩ :=
    .asked s path listing hs hpath hlisting
  have hkey : parameterKey "objdb" = "objdb" := by decide
  -- the clauses: what is passed on, nobody meant, a blank name, a run, and no abbreviation
  refine ⟨?_, fun hnone => ?_, fun db hdb => ⟨fun hblank => ?_, ?_⟩, fun hblank => ?_⟩
  · change values.entries.filter (·.1 ≠ parameterKey "objdb") = _
    rw [hkey]
  · refine DetailCourse.takes (.chosen s _ hs (.refused _ rows hl hrows ?_))
    rw [detailChoice, mappedName?_of_forall hnone]
    rfl
  · -- the row has a blank name, so nothing is chosen though a row is meant
    refine DetailCourse.takes (.chosen s _ hs (.refused _ rows hl hrows ?_))
    rw [detailChoice, mappedName?_of_isFirst hdb, if_pos hblank]
    rfl
  · -- the run starts from the cache that the listing leaves
    intro hname path' command hpath' hcommand
    refine DetailCourse.takes (.chosen s _ hs ?_)
    refine .run _ rows ⟨s, some db.name⟩ supplied path' _ hl hrows ?_ hpath'
      (.asked command hcommand)
    rw [detailChoice, mappedName?_of_isFirst hdb, if_neg (Bool.eq_false_iff.1 hname)]
    rfl
  · -- without an abbreviation the text is blank and trims to the empty one
    exact isMeant_iff_of_isAllBlank (isAllBlank_suppliedText hblank)

/-! ### Two of three rows -/

def detailFiles : FileTree :=
  (FileTree.empty.write ⟨[.name "dbdatabases.sqlds"], false, 17⟩ (Utf8.encode
    "<Command><CommandText>CALL f()</CommandText></Command>")).write
  ⟨[.name "dbobject.jsonds"], false, 15⟩ (Utf8.encode
    ("<Command><Parameters><Parameter name='id'/></Parameters>" ++
      "<CommandText>CALL g(@id)</CommandText></Command>"))

/-- A listing with a row that has no abbreviation. -/
def detailRows : List DatabaseInfo :=
  [⟨1, "app", "app_dev", "2020-01-01", 150⟩, ⟨2, "", "old_dev", "2020-01-01", 150⟩,
    ⟨3, "App", "app_new", "2020-01-01", 150⟩]

def detailTenant : Tenant := ⟨"dev", "Development", "DevDb", []⟩

def detailSite : Site :=
  ⟨⟨[detailTenant], [("DevDb", "postgres://gateway@localhost/app")]⟩, detailFiles,
    fun _ _ => .ok ["[1]"], fun _ _ => .ok detailRows⟩

/-- Of two rows with one abbreviation the first is meant. Values without an abbreviation get the
database of the row that has none. -/
theorem detail_maps_requested_unnamed :
    let dev := "postgres://gateway@localhost/app"
    let asked : Call := ⟨.databases, ⟨dev, none⟩, ⟨⟨"CALL f()", []⟩, 30⟩,
      ⟨⟨[.name "dbdatabases.sqlds"], false, 17⟩, listingValues detailTenant⟩⟩
    let supplied : ParameterValues := ⟨[("id", .text "7")]⟩
    let ran := fun database : String => Call.mk .firstColumn ⟨dev, some database⟩
      ⟨⟨"CALL g($1)", [.value (.text "7")]⟩, 30⟩
      ⟨⟨[.name "dbobject.jsonds"], false, 15⟩, supplied⟩
    detailSite.registry.connectionString detailTenant = .ok dev ∧
      (∃ after, (objectDetail detailTenant
          (.ofList [("objdb", .text " APP"), ("id", .text "7")])).Takes
        detailSite ⟨true, [], 0⟩ ⟨.ok "[1]", after, [asked, ran "app_dev"]⟩) ∧
      ∃ after, (objectDetail detailTenant supplied).Takes detailSite ⟨true, [], 0⟩
        ⟨.ok "[1]", after, [asked, ran "old_dev"]⟩ := by
  intro dev asked supplied ran
  have hs : detailSite.registry.connectionString detailTenant = .ok dev :=
    except_eq_ok_of_toOption (by decide)
  have hpath : detailSite.files.find? databasesDescriptor =
      some ⟨[.name "dbdatabases.sqlds"], false, 17⟩ := by decide +kernel
  have hlisting : prepared detailSite.files ⟨true, [], 0⟩ asked.source = .ok asked.command :=
    except_eq_ok_of_toOption (by decide +kernel)
  have hrows : detailSite.runner.databases ⟨dev, none⟩ asked.command = .ok detailRows := rfl
  have hpath' : detailSite.files.find? objectDescriptor =
      some ⟨[.name "dbobject.jsonds"], false, 15⟩ := by decide +kernel
  -- the values are the same in both runs once the abbreviation is gone
  have hnamed : supplied =
      (ParameterValues.ofList [("objdb", .text " APP"), ("id", .text "7")]).erase "objdb" := by
    decide
  have hunnamed : supplied = supplied.erase "objdb" := by decide
  have hcommand : prepared detailSite.files
      ((⟨true, [], 0⟩ : DescriptorCache).load detailSite.files asked.source.descriptor).2
      (ran "app_dev").source = .ok (ran "app_dev").command :=
    except_eq_ok_of_toOption (by decide +kernel)
  refine ⟨hs, ?_, ?_⟩
  · -- the first row with this abbreviation is meant, of the two that have it
    obtain ⟨-, -, hfirst, -⟩ := detail_maps_requested hs ⟨true, [], 0⟩
      (.ofList [("objdb", .text " APP"), ("id", .text "7")]) hpath hlisting hrows
    obtain ⟨-, hruns⟩ := hfirst ⟨1, "app", "app_dev", "2020-01-01", 150⟩ (by decide)
    rw [← hnamed] at hruns
    exact ⟨_, hruns (by decide) _ _ hpath' hcommand⟩
  · -- the row without an abbreviation is meant when none is given
    obtain ⟨-, -, hfirst, -⟩ :=
      detail_maps_requested hs ⟨true, [], 0⟩ supplied hpath hlisting hrows
    obtain ⟨-, hruns⟩ := hfirst ⟨2, "", "old_dev", "2020-01-01", 150⟩ (by decide)
    rw [← hunnamed] at hruns
    exact ⟨_, hruns (by decide) _ _ hpath' hcommand⟩

end QueryGateway.Catalog
