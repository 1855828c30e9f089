import QueryGateway.Proofs.Execution.Alike
import QueryGateway.Proofs.Http.Courses

/-!
# Requests on two trees of files

A request is for a static file if its path names a safe endpoint and no descriptor comes first
(`Request.IsForStatic`). Its answer is read off the file of one name, and leaves the progress as it
is (`answer_of_isForStatic`). Every other request reads descriptors alone, so on two trees with the
same descriptors it is answered alike (`answer_alike`).
-/

namespace QueryGateway.Http

open Serving

variable {site : Site} {files : FileTree} {r : Request} {endpoint : String}

/-! ### Requests for static files -/

/-- **A request for a static file:** no descriptor comes first, for want of a tenant or of a
descriptor under the name. -/
structure Request.IsForStatic (r : Request) (site : Site) (endpoint : String) : Prop where
  route : Route.ofPath r.target.path = .dataSource
  endpoint?_eq : endpoint? r.target.path = some endpoint
  isSafe : isSafeEndpoint endpoint = true
  undescribed : tenant? site r = none ∨
    site.files.find? (descriptorName endpoint r.accepted.preferred) = none

def Request.staticName (r : Request) (site : Site) (endpoint : String) : String :=
  QueryGateway.staticName endpoint r.accepted.preferred (tenant? site r)

/-- **The answer from the static file** under a name, if there is one. A blank file is answered like
one that is missing. -/
def staticOutcome (files : FileTree) (name : String) (media : MediaType) (endpoint : String) :
    Except GatewayError Response :=
  match files.find? name with
  | some path =>
    ((files.readText path).mapError .file).bind (contentResponse media · endpoint)
  | none => .error (.notFound endpoint)

theorem staticOutcome_congr {f g : FileTree} {name : String} (h : f.SameUnder g name)
    (media : MediaType) (endpoint : String) :
    staticOutcome f name media endpoint = staticOutcome g name media endpoint := by
  unfold staticOutcome
  rw [← h.find?_eq]
  cases hfind : f.find? name with
  | none => rfl
  | some path => simp only [h.readText_eq path hfind]

theorem staticOutcome_eq {name : String} {path : FilePath} {text : String}
    (hfind : files.find? name = some path) (hread : files.readText path = .ok text)
    (media : MediaType) (endpoint : String) :
    staticOutcome files name media endpoint = contentResponse media text endpoint := by
  simp only [staticOutcome, hfind, hread]
  rfl

/-- A request that is for a static file resolves to it: its endpoint is safe, and no descriptor
comes first. -/
theorem Request.IsForStatic.resolveArtifact_eq (h : r.IsForStatic site endpoint) :
    resolveArtifact site.files (tenant? site r) endpoint r.accepted.preferred =
      staticArtifact site.files (tenant? site r) endpoint r.accepted.preferred := by
  unfold resolveArtifact
  rw [if_pos h.isSafe]
  -- without a tenant there is no descriptor to look for
  cases ht : tenant? site r with
  | none => rfl
  | some t =>
    have hnone := h.undescribed.resolve_left fun hnone => by cases ht.symm.trans hnone
    simp only [hnone]

theorem dataSource_eq (hendpoint : endpoint? r.target.path = some endpoint) (p : Progress) :
    dataSource r site p =
      ((resolveArtifact site.files (tenant? site r) endpoint r.accepted.preferred).text
        (.ofQueryPairs r.pairs) >>= fun body =>
          lift (contentResponse r.accepted.preferred body endpoint)) site p := by
  unfold dataSource
  rw [hendpoint]
  rfl

theorem contentResponse_empty (media : MediaType) (what : String) :
    contentResponse media "" what = .error (.notFound what) := by
  rw [contentResponse, if_pos (by decide)]

theorem dataSource_of_isForStatic (h : r.IsForStatic site endpoint) (p : Progress) :
    dataSource r site p =
      (staticOutcome site.files (r.staticName site endpoint) r.accepted.preferred endpoint,
        p) := by
  rw [dataSource_eq h.endpoint?_eq, h.resolveArtifact_eq]
  -- no file has the empty text, which is not found, and that is the error of no file
  unfold staticArtifact staticOutcome Request.staticName
  cases site.files.find?
    (QueryGateway.staticName endpoint r.accepted.preferred (tenant? site r)) with
  | none =>
    change (contentResponse r.accepted.preferred "" endpoint, p) = _
    rw [contentResponse_empty]
  -- the artifact is the file, whose text is read with nothing asked and the cache left as it is
  | some path =>
    have hread : (Artifact.static path).text (.ofQueryPairs r.pairs) site p =
        ((site.files.readText path).mapError .file, p) := rfl
    change Serving.bind _ _ site p = _
    rw [Serving.bind, hread]
    dsimp only
    cases (site.files.readText path).mapError GatewayError.file <;> rfl

/-- **The answer is read off the file,** and nothing else happens. -/
theorem answer_of_isForStatic (h : r.IsForStatic site endpoint) (p : Progress) :
    answer site p r =
      (responseOf
        (staticOutcome site.files (r.staticName site endpoint) r.accepted.preferred endpoint),
        p) := by
  have hrespond : Route.dataSource.respond r site p = _ := dataSource_of_isForStatic h p
  simp only [answer, h.route, hrespond]
  cases staticOutcome site.files (r.staticName site endpoint) r.accepted.preferred endpoint <;> rfl

/-! ### All other requests -/

/-- **Trees with the same descriptors,** those of the catalog and those of endpoints. They may
differ in static files and in anything that no name leads to. -/
structure SameDescriptors (f g : FileTree) : Prop where
  hasRoot_eq : f.hasRoot = g.hasRoot
  databases : f.SameUnder g Catalog.databasesDescriptor
  objects : f.SameUnder g Catalog.objectsDescriptor
  object : f.SameUnder g Catalog.objectDescriptor
  endpoint : ∀ endpoint media, isSafeEndpoint endpoint = true →
    f.SameUnder g (descriptorName endpoint media)

theorem requireTenant_alike (r : Request) : (requireTenant r).Alike site files := by
  refine alike_site fun p => ?_
  cases r.context?.bind site.registry.find? with
  | some t => rfl
  | none => rfl

/-- A request for a data source that is for no static file is answered alike: it is refused before
any file is looked for, or a descriptor comes first. -/
theorem dataSource_alike (h : SameDescriptors site.files files)
    (hroute : Route.ofPath r.target.path = .dataSource)
    (hstatic : ∀ endpoint, ¬ r.IsForStatic site endpoint) : (dataSource r).Alike site files := by
  -- without an endpoint no file is looked for, on either tree
  cases hendpoint : endpoint? r.target.path with
  | none =>
    unfold dataSource
    rw [hendpoint]
    exact alike_lift _
  | some endpoint =>
    have hnot := hstatic endpoint
    -- the endpoint resolves to one artifact on both trees, and that one is worked alike
    suffices hresolve : ∃ a : Artifact,
        resolveArtifact site.files (tenant? site r) endpoint r.accepted.preferred = a ∧
        resolveArtifact files (tenant? site r) endpoint r.accepted.preferred = a ∧
        (a.text (.ofQueryPairs r.pairs)).Alike site files by
      obtain ⟨a, ha, ha', halike⟩ := hresolve
      intro p
      rw [dataSource_eq hendpoint, dataSource_eq hendpoint, ha]
      change ((resolveArtifact files (tenant? site r) endpoint r.accepted.preferred).text
        (.ofQueryPairs r.pairs) >>= _) _ p = _
      rw [ha']
      exact halike.bind (fun _ => alike_lift _) p
    -- which artifact that is: by whether the name is safe, and whether there is a tenant
    unfold resolveArtifact
    by_cases hsafe : isSafeEndpoint endpoint = true
    · rw [if_pos hsafe, if_pos hsafe]
      cases ht : tenant? site r with
      | none => exact absurd ⟨hroute, hendpoint, hsafe, .inl ht⟩ hnot
      | some t =>
        have hname := h.endpoint endpoint r.accepted.preferred hsafe
        simp only [← hname.find?_eq]
        -- without a descriptor the request would be for a static file
        cases hfind : site.files.find? (descriptorName endpoint r.accepted.preferred) with
        | none => exact absurd ⟨hroute, hendpoint, hsafe, .inr hfind⟩ hnot
        | some path =>
          refine ⟨.templated path t, rfl, rfl, Artifact.text_alike _ ?_⟩
          -- the file of the descriptor has the same text on both trees
          rintro path' (⟨t', heq⟩ | heq)
          · obtain ⟨rfl, -⟩ := Artifact.templated.inj heq
            exact hname.readText_eq path hfind
          · cases heq
    · -- an unsafe name is looked up on neither tree
      rw [if_neg hsafe, if_neg hsafe]
      exact ⟨.nothing, rfl, rfl, alike_pure ""⟩

/-- **A request that is for no static file** is answered alike. -/
theorem answer_alike (h : SameDescriptors site.files files)
    (hstatic : ∀ endpoint, ¬ r.IsForStatic site endpoint) (p : Progress) :
    answer { site with files } p r = answer site p r := by
  -- the routes read descriptors and whether there is a root, in which the trees agree
  have hrespond : ((Route.ofPath r.target.path).respond r).Alike site files := by
    cases hroute : Route.ofPath r.target.path with
    | health => exact alike_pure _
    | version => exact alike_pure _
    | readiness =>
      refine alike_site fun p => ?_
      rw [readiness, ← h.hasRoot_eq]
      rfl
    | listDatabases =>
      exact (requireTenant_alike r).bind fun t =>
        (Catalog.listDatabases_alike h.databases t).bind fun _ => alike_pure _
    | searchObjects =>
      exact (requireTenant_alike r).bind fun t =>
        (Catalog.searchObjects_alike h.databases h.objects t _).bind fun _ => alike_lift _
    | objectDetail =>
      exact (requireTenant_alike r).bind fun t =>
        (Catalog.objectDetail_alike h.databases h.object t _).bind fun _ => alike_lift _
    | dataSource => exact dataSource_alike h hroute hstatic
  simp only [answer]
  rw [hrespond p]

end QueryGateway.Http
