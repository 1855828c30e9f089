import QueryGateway.Proofs.Artifact.Resolution
import QueryGateway.Proofs.Catalog.Mapping
import QueryGateway.Proofs.Command.Compilation
import QueryGateway.Proofs.Http.Sources

/-!
# Ways to the catalog

The descriptors of the search and of the detail can be reached in two ways. Their own routes map
what a request names to databases of its tenant. But a path that is spelled in another way, as
`/API/dbobjects` or `/api/dbobject%73`, is not on these routes: it asks for the data source of the
endpoint, the same descriptor is found for it, and it runs with the values of the query as they
came, in the database of the connection string. This is a way around the mapping (`GoesAround`).

`catalog_mapped_iff` says that it is the only one: the calls of the search and of the detail are all
mapped (`Call.IsMapped`) exactly if the request does not go around the mapping, and if it does, the
call around it is all that is asked.
-/

namespace QueryGateway

open Http

variable {site : Site} {cache : DescriptorCache} {r : Request}

/-- **What the catalog is meant to guarantee** about a call of a request: if it is of the search or
of the detail, it is mapped, for the tenant that the request is for. -/
structure Call.IsMapped (c : Call) (site : Site) (r : Request) (calls : List Call) : Prop where
  search : c.Runs Catalog.objectsDescriptor →
    ∃ t, tenant? site r = some t ∧ c.SearchesMapped site t calls
  detail : c.Runs Catalog.objectDescriptor →
    ∃ t, tenant? site r = some t ∧ c.DetailsMapped site t calls

/-! ### Files of calls -/

theorem Call.runs_of_find? {c : Call} {files : FileTree} {name : String}
    (hname : IsSingleName name) (h : files.find? name = some c.source.descriptor) : c.Runs name :=
  hname.parts_of_find? h

/-- A call runs one file. -/
theorem Call.Runs.unique {c : Call} {name name' : String} (h : c.Runs name) (h' : c.Runs name') :
    name = name' := by
  have hparts : [PathPart.name name] = [.name name'] := h.symm.trans h'
  exact PathPart.name.inj (List.head_eq_of_cons_eq hparts)

theorem isSingle_databasesDescriptor : IsSingleName Catalog.databasesDescriptor :=
  ⟨by decide, by decide, by decide, by decide⟩

/-- The descriptor of the search is that of an endpoint. -/
theorem descriptorName_dbobjects :
    descriptorName "dbobjects" .json = Catalog.objectsDescriptor := by
  decide

/-- The descriptor of the detail is that of an endpoint. -/
theorem descriptorName_dbobject :
    descriptorName "dbobject" .json = Catalog.objectDescriptor := by
  decide

theorem isSingle_objectsDescriptor : IsSingleName Catalog.objectsDescriptor := by
  rw [← descriptorName_dbobjects]
  exact isSingle_descriptorName (by decide) .json

theorem isSingle_objectDescriptor : IsSingleName Catalog.objectDescriptor := by
  rw [← descriptorName_dbobject]
  exact isSingle_descriptorName (by decide) .json

/-- A call of the listing is neither of the search nor of the detail. -/
theorem isMapped_of_databases {c : Call} {calls : List Call}
    (h : site.files.find? Catalog.databasesDescriptor = some c.source.descriptor) :
    c.IsMapped site r calls := by
  have hruns := Call.runs_of_find? isSingle_databasesDescriptor h
  refine ⟨fun hsearch => ?_, fun hdetail => ?_⟩
  · exact absurd (hruns.unique hsearch) (by decide)
  · exact absurd (hruns.unique hdetail) (by decide)

/-! ### The way around -/

/-- The endpoints whose descriptors are those of the search and of the detail. As endpoints of data
sources they lead to the same files. -/
def catalogEndpoints : List String := ["dbobjects", "dbobject"]

/-- **A call around the mapping:** the path names an endpoint of the catalog, but not as the route
of the endpoint is spelled, and the descriptor of the endpoint runs with the values of the query. -/
inductive GoesAround (site : Site) (cache : DescriptorCache) (r : Request) : Call → Prop where
  | intro (endpoint : String) (t : Tenant) (s : String) (path : FilePath)
      (command : PreparedCommand) (hcatalog : endpoint ∈ catalogEndpoints)
      (hspelling : r.target.path ≠ "/api/" ++ endpoint)
      (hendpoint : endpoint? r.target.path = some endpoint)
      (hmedia : r.accepted.preferred = .json) (htenant : tenant? site r = some t)
      (hs : site.registry.connectionString t = .ok s)
      (hpath : site.files.find? (descriptorName endpoint .json) = some path)
      (hcommand : prepared site.files cache ⟨path, .ofQueryPairs r.pairs⟩ = .ok command) :
    GoesAround site cache r ⟨.firstColumn, ⟨s, none⟩, command, ⟨path, .ofQueryPairs r.pairs⟩⟩

theorem isSafeEndpoint_of_mem_catalogEndpoints :
    ∀ endpoint ∈ catalogEndpoints, isSafeEndpoint endpoint = true := by
  decide

/-- A path with a route of its own names the endpoint of the route, if any. -/
theorem endpoint?_of_mem_named :
    ∀ entry ∈ Route.named, (endpoint? entry.1).all (fun e => entry.1 = "/api/" ++ e) = true := by
  decide +kernel

/-- **A path that is spelled in another way** than the route of its endpoint asks for a data
source. -/
theorem ofPath_eq_dataSource {path endpoint : String} (hendpoint : endpoint? path = some endpoint)
    (hspelling : path ≠ "/api/" ++ endpoint) : Route.ofPath path = .dataSource := by
  -- a route of the table has the spelling of its own endpoint, so none of them is this path
  have hnone : Route.named.find? (·.1 = path) = none := by
    rw [List.find?_eq_none]
    intro entry hentry hpath
    obtain rfl := of_decide_eq_true hpath
    have hnamed := endpoint?_of_mem_named entry hentry
    rw [hendpoint] at hnamed
    exact hspelling (of_decide_eq_true hnamed)
  rw [Route.ofPath, hnone]
  rfl

/-- The routes of the catalog are spelled like their endpoints. -/
theorem ne_of_ofPath_eq_dataSource {path endpoint : String} (h : Route.ofPath path = .dataSource)
    (hcatalog : endpoint ∈ catalogEndpoints) : path ≠ "/api/" ++ endpoint := by
  rintro rfl
  revert h
  revert endpoint
  decide

/-- **Who goes around asks nothing else.** -/
theorem GoesAround.callsOf_eq {call : Call} (h : GoesAround site cache r call) :
    callsOf site cache r = [call] := by
  obtain ⟨endpoint, t, s, path, command, hcatalog, hspelling, hendpoint, hmedia, htenant, hs, hpath,
    hcommand⟩ := h
  -- the request is one for a data source, and its artifact is the descriptor of the endpoint
  have hroute := ofPath_eq_dataSource hendpoint hspelling
  have hsafe := isSafeEndpoint_of_mem_catalogEndpoints endpoint hcatalog
  have hartifact : resolveArtifact site.files (tenant? site r) endpoint r.accepted.preferred =
      .templated path t := by
    rw [hmedia]
    exact resolveArtifact_eq_templated_iff.2 ⟨hsafe, htenant, hpath⟩
  -- some course is taken; the other ones contradict what going around says
  obtain ⟨c, hc, htakes⟩ : ∃ c, DataSourceCourse site cache r c ∧ _ := dataSource_takes r
  have hcalls : callsOf site cache r = c.calls := by
    refine Http.callsOf_eq ?_ ?_
    · rw [hroute]
      rfl
    · rw [hroute]
      exact htakes
  rw [hcalls]
  cases hc with
  | endpointless h =>
    rw [hendpoint] at h
    cases h
  | resolved endpoint' c hendpoint' h =>
    obtain rfl : endpoint = endpoint' := Option.some.inj (hendpoint.symm.trans hendpoint')
    rw [hartifact] at h
    cases h with
    | unconnected _ _ e h =>
      rw [hs] at h
      cases h
    -- there is a connection, so the descriptor is run
    | run _ _ s' _ hs' h =>
      obtain rfl : s = s' := Except.ok.inj (hs.symm.trans hs')
      cases h with
      | unprepared e h =>
        rw [hcommand] at h
        cases h
      -- and there is a command, which is the one that the call has
      | asked command' h =>
        obtain rfl : command = command' := Except.ok.inj (hcommand.symm.trans h)
        rfl

/-- **Who goes around is not mapped:** there is no listing that the names could come from. -/
theorem GoesAround.not_isMapped {call : Call} (h : GoesAround site cache r call) :
    ¬ call.IsMapped site r (callsOf site cache r) := by
  intro hmapped
  rw [h.callsOf_eq] at hmapped
  -- alone the call has no listing before it, which being mapped asks for
  have halone : ∀ listing, ¬ List.Sublist [listing, call] [call] := fun listing hsub =>
    absurd hsub.length_le (by simp)
  obtain ⟨endpoint, t, s, path, command, hcatalog, -, -, -, -, -, hpath, -⟩ := h
  have hsafe := isSafeEndpoint_of_mem_catalogEndpoints endpoint hcatalog
  have hruns := (isSingle_descriptorName hsafe .json).parts_of_find? hpath
  simp only [catalogEndpoints, List.mem_cons, List.not_mem_nil, or_false] at hcatalog
  -- one case for each of the two catalog endpoints, as each is mapped in its own way
  rcases hcatalog with rfl | rfl
  · rw [descriptorName_dbobjects] at hruns
    obtain ⟨t, -, listing, rows, chosen, hsub, -⟩ := hmapped.search hruns
    exact halone listing hsub
  · rw [descriptorName_dbobject] at hruns
    obtain ⟨t, -, listing, rows, db, -, hsub, -⟩ := hmapped.detail hruns
    exact halone listing hsub

/-! ### There is no other way -/

/-- What a data source asks is no question to the catalog, or goes around the mapping. -/
theorem DataSourceCourse.isMapped_or_goesAround {c : Course Response} {call : Call}
    (h : DataSourceCourse site cache r c) (hroute : Route.ofPath r.target.path = .dataSource)
    (hcall : call ∈ c.calls) (calls : List Call) :
    call.IsMapped site r calls ∨ GoesAround site cache r call := by
  cases h with
  | endpointless h => exact absurd hcall List.not_mem_nil
  | resolved endpoint c hendpoint h =>
    obtain ⟨path, t, s, hartifact, hs, hrun⟩ := h.of_mem hcall
    obtain ⟨hsafe, htenant, hpath⟩ := resolveArtifact_eq_templated_iff.1 hartifact
    obtain ⟨hcommand, hcall, -⟩ := hrun.of_mem hcall
    -- a call is for a catalog endpoint, and then goes around, or for some other descriptor
    by_cases hcatalog : endpoint ∈ catalogEndpoints ∧ r.accepted.preferred = .json
    · refine Or.inr ?_
      rw [hcatalog.2] at hpath
      rw [hcall]
      exact .intro endpoint t s path call.command hcatalog.1
        (ne_of_ofPath_eq_dataSource hroute hcatalog.1) hendpoint hcatalog.2 htenant hs hpath
        hcommand
    · have hruns : call.Runs (descriptorName endpoint r.accepted.preferred) := by
        rw [hcall]
        exact (isSingle_descriptorName hsafe r.accepted.preferred).parts_of_find? hpath
      -- another descriptor has another name
      have hother : ∀ e ∈ catalogEndpoints,
          descriptorName endpoint r.accepted.preferred ≠ descriptorName e .json := by
        intro e he hname
        obtain ⟨rfl, hmedia⟩ := descriptorName_inj hname
        exact hcatalog ⟨he, hmedia⟩
      refine Or.inl ⟨fun hsearch => ?_, fun hdetail => ?_⟩
      · rw [← descriptorName_dbobjects] at hsearch
        exact absurd (hruns.unique hsearch) (hother _ (by decide))
      · rw [← descriptorName_dbobject] at hdetail
        exact absurd (hruns.unique hdetail) (hother _ (by decide))

/-- **A call is mapped or goes around,** whatever the request is. -/
theorem isMapped_or_goesAround {call : Call} (hcall : call ∈ callsOf site cache r) :
    call.IsMapped site r (callsOf site cache r) ∨ GoesAround site cache r call := by
  -- nothing asked, or the calls of one course, which the route decides
  rcases callsOf_cases site cache r with hnone | ⟨c, hc, hcalls⟩
  · rw [hnone] at hcall
    exact absurd hcall List.not_mem_nil
  rw [hcalls] at hcall ⊢
  generalize hroute : Route.ofPath r.target.path = route at hc
  cases hc with
  | health => exact absurd hcall List.not_mem_nil
  | readiness => exact absurd hcall List.not_mem_nil
  | version => exact absurd hcall List.not_mem_nil
  | tenantless route h hroute => exact absurd hcall List.not_mem_nil
  | listDatabases t c ht h => exact Or.inl (isMapped_of_databases (h.descriptor hcall))
  -- on its own route the search is mapped, and the detail is as well
  | searchObjects t c ht h =>
    refine Or.inl ?_
    rcases h.mapped hcall with hlisting | ⟨hpath, hmapped⟩
    · exact isMapped_of_databases hlisting
    have hruns := Call.runs_of_find? isSingle_objectsDescriptor hpath
    exact ⟨fun _ => ⟨t, ht, hmapped⟩, fun hdetail => absurd (hruns.unique hdetail) (by decide)⟩
  | objectDetail t c ht h =>
    refine Or.inl ?_
    rcases h.mapped hcall with hlisting | ⟨hpath, hmapped⟩
    · exact isMapped_of_databases hlisting
    have hruns := Call.runs_of_find? isSingle_objectDescriptor hpath
    exact ⟨fun hsearch => absurd (hruns.unique hsearch) (by decide), fun _ => ⟨t, ht, hmapped⟩⟩
  | dataSource c h => exact DataSourceCourse.isMapped_or_goesAround h hroute hcall c.calls

/-- **Catalog queries run mapped, except around the mapping.** Of every request, whatever the site,
the cache, and the spelling of the path: the commands of its calls come from the sources listed with
them; its catalog queries are all mapped exactly if it does not go around; and if it does, the
unmapped call is all that it asks. -/
theorem catalog_mapped_iff (site : Site) (cache : DescriptorCache) (r : Request) :
    (∀ call ∈ callsOf site cache r, call.IsPrepared site.files cache) ∧
    ((∀ call ∈ callsOf site cache r, call.IsMapped site r (callsOf site cache r)) ↔
      ∀ call, ¬ GoesAround site cache r call) ∧
    ∀ call, GoesAround site cache r call → callsOf site cache r = [call] := by
  -- going around is alone, so it cannot be mapped; who does not go around is
  refine ⟨fun call hcall => callsOf_isPrepared hcall, ⟨fun hmapped call h => ?_, fun h => ?_⟩,
    fun call h => h.callsOf_eq⟩
  · refine h.not_isMapped (hmapped call ?_)
    rw [h.callsOf_eq]
    exact List.mem_cons_self
  · intro call hcall
    exact (isMapped_or_goesAround hcall).resolve_right (h call)

/-! ### One search, spelled in two ways -/

/-- A descriptor of the search. -/
def searchDocument : String :=
  "<Command><CommandText>CALL f(@searchdbs)</CommandText>" ++
    "<Parameters><Parameter name='searchdbs'/></Parameters></Command>"

/-- A site with one tenant and the descriptor of the search, and without a listing. -/
def searchSite : Site where
  registry :=
    ⟨[⟨"dev", "Development", "DevDb", []⟩], [("DevDb", "postgres://gateway@localhost/app")]⟩
  files := FileTree.empty.write ⟨[.name "dbobjects.jsonds"], false, 16⟩
    (Text.Utf8.encode searchDocument)
  runner := ⟨fun _ _ => .ok ["[1]"], fun _ _ => .ok []⟩

/-- A search for a database that no listing has. -/
def searchRequest (path : String) : Request :=
  ⟨"GET", .parse (path ++ "?ctx=dev&searchdbs=secret"), []⟩

/-- What is asked when the search goes around the mapping. -/
def searchCall : Call :=
  ⟨.firstColumn, ⟨"postgres://gateway@localhost/app", none⟩,
    ⟨⟨"CALL f($1)", [.value (.text "secret")]⟩, 30⟩,
    ⟨⟨[.name "dbobjects.jsonds"], false, 16⟩,
      .ofQueryPairs (searchRequest "/API/dbobjects").pairs⟩⟩

theorem searchCall_goesAround :
    GoesAround searchSite { isEnabled := true } (searchRequest "/API/dbobjects") searchCall :=
  .intro "dbobjects" ⟨"dev", "Development", "DevDb", []⟩ _ _ _ (by decide) (by decide +kernel)
    (by decide +kernel) (by decide +kernel) (by decide +kernel)
    (except_eq_ok_of_toOption (by decide +kernel)) (by decide +kernel)
    (except_eq_ok_of_toOption (by decide +kernel))

/-- On its own route the search asks nothing that is not mapped. With a letter of the path in
another case, it asks for the database by the name that the request brought. -/
theorem catalog_mapped_iff_otherCase :
    (∀ call ∈ callsOf searchSite { isEnabled := true } (searchRequest "/api/dbobjects"),
      call.IsMapped searchSite (searchRequest "/api/dbobjects")
        (callsOf searchSite { isEnabled := true } (searchRequest "/api/dbobjects"))) ∧
    callsOf searchSite { isEnabled := true } (searchRequest "/API/dbobjects") = [searchCall] ∧
    ¬ ∀ call ∈ callsOf searchSite { isEnabled := true } (searchRequest "/API/dbobjects"),
      call.IsMapped searchSite (searchRequest "/API/dbobjects")
        (callsOf searchSite { isEnabled := true } (searchRequest "/API/dbobjects")) := by
  have hother :=
    catalog_mapped_iff searchSite { isEnabled := true } (searchRequest "/API/dbobjects")
  refine ⟨?_, hother.2.2 _ searchCall_goesAround, fun hmapped => ?_⟩
  · -- on the route of the endpoint the spelling is its own, so nobody goes around
    refine (catalog_mapped_iff searchSite _ (searchRequest "/api/dbobjects")).2.1.2 ?_
    rintro call ⟨endpoint, -, -, -, -, -, hspelling, hendpoint, -⟩
    have hnamed : endpoint? (searchRequest "/api/dbobjects").target.path = some "dbobjects" := by
      decide +kernel
    obtain rfl : "dbobjects" = endpoint := Option.some.inj (hnamed.symm.trans hendpoint)
    exact hspelling (by decide +kernel)
  · exact hother.2.1.1 hmapped _ searchCall_goesAround

end QueryGateway
