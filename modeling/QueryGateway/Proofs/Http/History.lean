import QueryGateway.Proofs.Artifact.Resolution
import QueryGateway.Proofs.Execution.Steadiness
import QueryGateway.Proofs.Http.Courses

/-!
# Requests one after the other

The descriptor cache is all that one request leaves behind for the next. What is seen of a request
is its response and its questions (`exchange`), and `exchanges` is what is seen of requests that are
answered in a row, each from the cache that the ones before have left.

`exchanges_eq_map` says that this cannot be told from requests that are each the first, nor from a
gateway that keeps no descriptors, as long as the files and the settings stay as they are. A step is
`exchange_of_isFaithful`: all routes are steady, so two faithful caches show the same, and a request
leaves a faithful cache. The cache that a gateway begins with has no entries and is faithful.
-/

namespace QueryGateway

open Serving Text

/-! ### The gateway of settings -/

/-- **What the gateway of settings serves from.** The registry is made of the settings once and does
not change afterwards. -/
def Settings.site (s : Settings) (files : FileTree) (runner : Runner) : Site :=
  ⟨.ofSettings s, files, runner⟩

/-- **The cache that the gateway of settings begins with:** an empty one, which keeps descriptors if
the settings say so. -/
def Settings.newCache (s : Settings) : DescriptorCache :=
  { isEnabled := s.cacheDescriptors }

theorem Settings.newCache_isFaithful (s : Settings) (files : FileTree) :
    s.newCache.IsFaithful files :=
  DescriptorCache.isFaithful_of_empty rfl

namespace Http

variable {site : Site} {r : Request}

/-! ### Routes are steady -/

theorem requireTenant_isSteady (r : Request) : (requireTenant r).IsSteady site :=
  isSteady_of_takes fun _ => requireTenant_takes r

theorem dataSource_isSteady (r : Request) : (dataSource r).IsSteady site := by
  unfold dataSource
  cases endpoint? r.target.path with
  | none => exact isSteady_lift _
  | some endpoint =>
    refine isSteady_site (IsSteady.bind ?_ fun _ => isSteady_lift _)
    refine Artifact.text_isSteady _ fun path t hartifact => ?_
    -- a descriptor that answers was looked up by name
    obtain ⟨-, -, hfind⟩ := resolveArtifact_eq_templated_iff.1 hartifact
    exact FileTree.isFile_of_find? hfind

/-- **Every route is steady.** -/
theorem respond_isSteady (route : Route) (r : Request) : (route.respond r).IsSteady site := by
  -- the three that answer from the site alone, the catalog with a tenant, and the data sources
  cases route with
  | health => exact isSteady_pure _
  | readiness => exact isSteady_site (isSteady_pure _)
  | version => exact isSteady_pure _
  | listDatabases =>
    exact (requireTenant_isSteady r).bind fun t =>
      (Catalog.listDatabases_isSteady t).bind fun _ => isSteady_pure _
  | searchObjects =>
    exact (requireTenant_isSteady r).bind fun t =>
      (Catalog.searchObjects_isSteady t _).bind fun _ => isSteady_lift _
  | objectDetail =>
    exact (requireTenant_isSteady r).bind fun t =>
      (Catalog.objectDetail_isSteady t _).bind fun _ => isSteady_lift _
  | dataSource => exact dataSource_isSteady r

/-! ### Exchanges -/

/-- **What is seen of a request:** its response and its questions. The cache is not seen, so two
caches may differ as long as this does not. -/
def exchange (site : Site) (cache : DescriptorCache) (r : Request) : Response × List Call :=
  let (response, p) := answer site { cache } r
  (response, p.calls)

/-- What a request leaves for the next one. -/
def cacheAfter (site : Site) (cache : DescriptorCache) (r : Request) : DescriptorCache :=
  (answer site { cache } r).2.cache

/-- **What is seen of requests in a row,** each from the cache that those before it have left. -/
def exchanges (site : Site) (cache : DescriptorCache) : List Request → List (Response × List Call)
  | [] => []
  | r :: rest => exchange site cache r :: exchanges site (cacheAfter site cache r) rest

/-- **One step:** what is seen of a request is the same from all faithful caches, and the request
leaves a faithful cache. -/
theorem exchange_of_isFaithful (site : Site) (r : Request) :
    ∃ seen, ∀ cache : DescriptorCache, cache.IsFaithful site.files →
      exchange site cache r = seen ∧ (cacheAfter site cache r).IsFaithful site.files := by
  -- a request that is not allowed leaves the cache; any other shows what its steady route does
  unfold exchange cacheAfter
  cases hallows : (Route.ofPath r.target.path).allows r.method with
  | false =>
    refine ⟨(methodNotAllowed, []), fun cache hcache => ?_⟩
    rw [answer_of_not_allows hallows]
    exact ⟨rfl, hcache⟩
  | true =>
    obtain ⟨outcome, calls, hrespond⟩ : (Route.respond _ r).IsSteady site :=
      respond_isSteady (Route.ofPath r.target.path) r
    refine ⟨((Route.ofPath r.target.path).deliver r.method (responseOf outcome), calls), ?_⟩
    intro cache hcache
    -- the outcome and the calls do not depend on the cache, and the cache is faithful again
    obtain ⟨after, hafter, htakes⟩ := hrespond cache hcache
    rw [answer_of_takes hallows htakes]
    exact ⟨rfl, hafter⟩

/-- **Requests in a row** show what each of them shows alone, from any faithful cache. -/
theorem exchanges_of_isFaithful {cache alone : DescriptorCache}
    (hcache : cache.IsFaithful site.files) (halone : alone.IsFaithful site.files)
    (requests : List Request) :
    exchanges site cache requests = requests.map (exchange site alone) := by
  -- the cache changes with each request, so the induction is over all faithful ones
  induction requests generalizing cache with
  | nil => rfl
  | cons r rest ih =>
    obtain ⟨seen, hseen⟩ := exchange_of_isFaithful site r
    obtain ⟨hfirst, hafter⟩ := hseen cache hcache
    obtain ⟨hsingle, -⟩ := hseen alone halone
    rw [exchanges, List.map_cons, hfirst, hsingle, ih hafter]

/-- **Nothing that came before shows.** Whatever requests a gateway has answered, with whatever
outcome, the response and the questions of each are those that it would have had as the first one,
and those of a gateway that differs in whether it keeps descriptors. -/
theorem exchanges_eq_map (s : Settings) (files : FileTree) (runner : Runner)
    (requests : List Request) (keeps : Bool) :
    let other : Settings := { s with cacheDescriptors := keeps }
    exchanges (s.site files runner) s.newCache requests =
      requests.map (exchange (other.site files runner) other.newCache) := by
  intro other
  exact exchanges_of_isFaithful (s.newCache_isFaithful files) (other.newCache_isFaithful files)
    requests

/-! ### A descriptor that is kept -/

/-- Settings with a context that has a connection string. -/
def keepingSettings : Settings where
  connectionStrings := [("DevDb", "postgres://gateway@localhost/app")]
  contexts := [("dev", { connectionStringKey := "DevDb" })]

/-- A request for a command leaves the descriptor of the command, unless none are kept. -/
example :
    let files := FileTree.empty.write ⟨[.name "w.jsonds"], false, 8⟩ (Utf8.encode
      "<Command><CommandText>CALL g()</CommandText></Command>")
    let site := keepingSettings.site files ⟨fun _ _ => .ok ["[1]"], fun _ _ => .ok []⟩
    let r : Request := ⟨"GET", .parse "/api/w?ctx=dev", []⟩
    let other : Settings := { keepingSettings with cacheDescriptors := false }
    (cacheAfter site keepingSettings.newCache r).entries.map Prod.fst = [[.name "w.jsonds"]] ∧
      (cacheAfter site other.newCache r).entries = [] ∧
      (exchange site keepingSettings.newCache r).2.length = 1 := by
  decide +kernel

end Http

end QueryGateway
