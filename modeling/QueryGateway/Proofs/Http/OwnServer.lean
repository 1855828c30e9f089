import QueryGateway.Proofs.Artifact.Resolution
import QueryGateway.Proofs.Catalog.Mapping
import QueryGateway.Proofs.Http.Courses
import QueryGateway.Proofs.Settings.Acceptance

/-!
# Requests reach the server of their own context

A request names a context, and whatever is asked while it is answered is asked at the connection
string that the settings give this context (`Settings.Serves`). `calls_reach_own_server` says so of
every call of every request, and what else can differ between the calls: the listing runs in the
database of the connection string, and the tenant and its descriptor alone decide its command; other
commands run there too, but for the detail of an object, which runs in a database that the listing
just before it has named.

What carries the argument is `Call.IsOwn`: a call of a route for a tenant is the listing, a command
in the tenant's own database, or the detail. Each course of a route makes calls of these forms
alone (`RouteCourse.isOwn`), whatever the registry is; what a tenant's connection string has to do
with the settings is known from `Settings.IsAccepted`.
-/

namespace QueryGateway

open Http Text

/-! ### Servers of contexts -/

/-- **The server of a context:** a connection string that is not blank, configured under the key
that the context of the name states. -/
def Settings.Serves (s : Settings) (name connection : String) : Prop :=
  ∃ c ∈ s.contexts, contextKey c.1 = contextKey name ∧
    (trim c.2.connectionStringKey, connection) ∈ s.connectionStrings ∧
    isAllBlank connection = false

namespace Settings.IsAccepted

variable {s : Settings}

/-- **A context has one server.** -/
theorem serves_unique (h : s.IsAccepted) {name connection other : String}
    (hc : s.Serves name connection) (ho : s.Serves name other) : other = connection := by
  obtain ⟨c, hmem, hkey, hconnection, -⟩ := hc
  obtain ⟨c', hmem', hkey', hother, -⟩ := ho
  -- the name has one context, and the key in it one connection string
  obtain rfl : c' = c :=
    List.inj_on_of_nodup_map h.contexts_nodup hmem' hmem (hkey'.trans hkey.symm)
  have hentry := List.inj_on_of_nodup_map h.connectionStrings_nodup hother hconnection rfl
  exact congrArg Prod.snd hentry

/-- The tenant of a request runs at the server of the request's context. -/
theorem serves_of_tenant? (h : s.IsAccepted) {site : Site} {r : Request} {t : Tenant}
    {connection : String} (hsite : site.registry = .ofSettings s) (ht : tenant? site r = some t)
    (hconnection : site.registry.connectionString t = .ok connection) :
    ∃ name, r.context? = some name ∧ s.Serves name connection := by
  -- the tenant is found for the context, so it is of a configured context
  rw [tenant?, hsite] at ht
  rw [hsite] at hconnection
  obtain ⟨name, hname, hfind⟩ := Option.bind_eq_some_iff.1 ht
  obtain ⟨-, c, hc, hkey, rfl⟩ :=
    (TenantRegistry.find?_ofSettings_eq_some_iff h.contexts_nodup).1 hfind
  -- and its connection string is that context's own, taken from the entry with the key
  obtain ⟨hentry, hblank⟩ := h.connectionString_eq_ok hconnection
  exact ⟨name, hname, c, hc, hkey, hentry, hblank⟩

end Settings.IsAccepted

/-! ### Calls for a tenant -/

/-- **The command of the listing,** which its descriptor and the tenant decide. Nothing of the
request goes into it. -/
def listingCommand (d : CommandDescriptor) (t : Tenant) : Except GatewayError PreparedCommand := do
  let statement ← (d.bind (Catalog.listingValues t)).statement
  return ⟨statement, d.timeoutSeconds⟩

/-- **A call of a route for a tenant,** among the calls of a request. Its cases are all the ways in
which a route may ask: the listing, a question in the tenant's own database, and the detail in one
that the listing has named. -/
inductive Call.IsOwn (site : Site) (cache : DescriptorCache) (t : Tenant) (calls : List Call) :
    Route → Call → Prop where
  /-- The listing runs in the database of the connection string. -/
  | listing (route : Route) (s : String) (path : FilePath) (command : PreparedCommand)
      (hs : site.registry.connectionString t = .ok s)
      (hpath : site.files.find? Catalog.databasesDescriptor = some path)
      (h : prepared site.files cache ⟨path, Catalog.listingValues t⟩ = .ok command) :
    IsOwn site cache t calls route
      ⟨.databases, ⟨s, none⟩, command, ⟨path, Catalog.listingValues t⟩⟩
  /-- So does a command of any other route than the detail. -/
  | plain (route : Route) (s : String) (command : PreparedCommand) (source : CommandSource)
      (hs : site.registry.connectionString t = .ok s) (hroute : route ≠ .objectDetail) :
    IsOwn site cache t calls route ⟨.firstColumn, ⟨s, none⟩, command, source⟩
  /-- The detail runs in a database that the listing has named. -/
  | detail (s : String) (command : PreparedCommand) (source : CommandSource) (listing : Call)
      (rows : List DatabaseInfo) (db : DatabaseInfo)
      (hs : site.registry.connectionString t = .ok s) (hlists : listing.ListsFor site t rows)
      (hdb : db ∈ rows) (hname : isAllBlank db.name = false)
      (hcalls : calls = [listing, ⟨.firstColumn, ⟨s, some db.name⟩, command, source⟩]) :
    IsOwn site cache t calls .objectDetail ⟨.firstColumn, ⟨s, some db.name⟩, command, source⟩

variable {site : Site} {cache : DescriptorCache} {r : Request} {t : Tenant}

theorem Catalog.ListingCourse.isOwn {c : Course (List DatabaseInfo)}
    (h : Catalog.ListingCourse site cache t c) {call : Call} (hcall : call ∈ c.calls)
    (calls : List Call) (route : Route) : call.IsOwn site cache t calls route := by
  obtain ⟨s, path, hs, hpath, hcommand, hcall⟩ := h.of_mem hcall
  rw [hcall]
  exact .listing route s path call.command hs hpath hcommand

/-- What a search asks is its tenant's own: the listing, or the search on the same target. -/
theorem Catalog.SearchCourse.isOwn {values : ParameterValues} {c : Course String}
    (h : Catalog.SearchCourse site cache t values c) {call : Call} (hcall : call ∈ c.calls) :
    call.IsOwn site cache t c.calls .searchObjects := by
  cases h with
  | unconnected e h => exact absurd hcall List.not_mem_nil
  | unnamed s hs h => exact absurd hcall List.not_mem_nil
  | chosen s c hs hnamed h =>
    -- the listing of the search, or the question that was chosen from it
    rcases h.asked hcall with ⟨listing, hl, hcall⟩ | ⟨listing, rows, -, -, hchoice, hquestion, -⟩
    · exact hl.isOwn hcall _ _
    · obtain ⟨htarget, -⟩ := Catalog.searchChoice_eq_some hchoice
      obtain ⟨question, target, command, source⟩ := call
      cases hquestion
      cases htarget
      exact .plain _ s command source hs (by decide)

/-- What a detail asks is its tenant's own: the listing, or the object in a database that it
names. -/
theorem Catalog.DetailCourse.isOwn {values : ParameterValues} {c : Course String}
    (h : Catalog.DetailCourse site cache t values c) {call : Call} (hcall : call ∈ c.calls) :
    call.IsOwn site cache t c.calls .objectDetail := by
  cases h with
  | unconnected e h => exact absurd hcall List.not_mem_nil
  | chosen s c hs h =>
    rcases h.asked hcall with
      ⟨listing, hl, hcall⟩ | ⟨listing, rows, hl, hrows, hchoice, hquestion, -, hcalls⟩
    · exact hl.isOwn hcall _ _
    · -- the database of the target is the name of a row, and the row is of the listing before
      obtain ⟨db, hdb, hname, htarget, -⟩ := Catalog.detailChoice_eq_some hchoice
      obtain ⟨asked, hasked, hlists⟩ := hl.lists hrows (List.ne_nil_of_mem hdb)
      rw [hasked] at hcalls
      obtain ⟨question, target, command, source⟩ := call
      cases hquestion
      cases htarget
      exact .detail s command source asked rows db hs hlists hdb hname hcalls

theorem Http.DataSourceCourse.isOwn {c : Course Response} (h : DataSourceCourse site cache r c)
    {call : Call} (hcall : call ∈ c.calls) (calls : List Call) :
    ∃ t, tenant? site r = some t ∧ call.IsOwn site cache t calls .dataSource := by
  cases h with
  | endpointless h => exact absurd hcall List.not_mem_nil
  | resolved endpoint c hendpoint h =>
    -- only a descriptor leads to a call, and it runs for the tenant of the request
    obtain ⟨path, t, s, hartifact, hs, hrun⟩ := h.of_mem hcall
    obtain ⟨-, htenant, -⟩ := resolveArtifact_eq_templated_iff.1 hartifact
    obtain ⟨-, hcall, -⟩ := hrun.of_mem hcall
    refine ⟨t, htenant, ?_⟩
    rw [hcall]
    exact .plain _ s call.command _ hs (by decide)

/-- **Every call of a route is for the tenant of the request.** -/
theorem Http.RouteCourse.isOwn {route : Route} {c : Course Response}
    (h : RouteCourse site cache r route c) {call : Call} (hcall : call ∈ c.calls) :
    ∃ t, tenant? site r = some t ∧ call.IsOwn site cache t c.calls route := by
  -- the routes without a tenant ask nothing
  cases h with
  | health => exact absurd hcall List.not_mem_nil
  | readiness => exact absurd hcall List.not_mem_nil
  | version => exact absurd hcall List.not_mem_nil
  | tenantless route h hroute => exact absurd hcall List.not_mem_nil
  | listDatabases t c ht h => exact ⟨t, ht, h.isOwn hcall _ _⟩
  | searchObjects t c ht h => exact ⟨t, ht, h.isOwn hcall⟩
  | objectDetail t c ht h => exact ⟨t, ht, h.isOwn hcall⟩
  | dataSource c h => exact DataSourceCourse.isOwn h hcall c.calls

theorem isOwn_of_mem_callsOf {call : Call} (hcall : call ∈ callsOf site cache r) :
    ∃ t, tenant? site r = some t ∧
      call.IsOwn site cache t (callsOf site cache r) (Route.ofPath r.target.path) := by
  rcases callsOf_cases site cache r with hnone | ⟨c, hc, hcalls⟩
  · rw [hnone] at hcall
    exact absurd hcall List.not_mem_nil
  · rw [hcalls] at hcall ⊢
    exact hc.isOwn hcall

/-! ### What own calls are like -/

namespace Call.IsOwn

variable {calls : List Call} {route : Route} {call : Call}

theorem connectionString (h : call.IsOwn site cache t calls route) :
    site.registry.connectionString t = .ok call.target.connectionString := by
  cases h with
  | listing _ s path command hs hpath h => exact hs
  | plain _ s command source hs hroute => exact hs
  | detail s command source listing rows db hs hlists hdb hname hcalls => exact hs

/-- **The listing** runs in no other database, and nothing but its descriptor and the tenant
decides its command. -/
theorem of_databases (h : call.IsOwn site cache t calls route)
    (hquestion : call.question = .databases) :
    call.target.database = none ∧ ∃ path shared,
      site.files.find? Catalog.databasesDescriptor = some path ∧
      (cache.load site.files path).1 = .ok shared ∧
      listingCommand shared.descriptor t = .ok call.command := by
  cases h with
  | listing _ s path command hs hpath h =>
    obtain ⟨shared, hload, hcommand⟩ := except_bind_eq_ok h
    exact ⟨rfl, path, shared, hpath, hload, hcommand⟩
  | plain _ s command source hs hroute => cases hquestion
  | detail s command source listing rows db hs hlists hdb hname hcalls => cases hquestion

/-- Two listings for one tenant are the same call, whatever routes and requests they are for. -/
theorem databases_unique {calls' : List Call} {route' : Route} {call' : Call}
    (h : call.IsOwn site cache t calls route) (h' : call'.IsOwn site cache t calls' route')
    (hquestion : call.question = .databases) (hquestion' : call'.question = .databases) :
    call = call' := by
  -- only a listing asks this question, so both are
  cases h with
  | plain _ s command source hs hroute => cases hquestion
  | detail s command source listing rows db hs hlists hdb hname hcalls => cases hquestion
  | listing _ s path command hs hpath h =>
    cases h' with
    | plain _ s' command' source hs' hroute => cases hquestion'
    | detail s' command' source listing rows db hs' hlists hdb hname hcalls => cases hquestion'
    | listing _ s' path' command' hs' hpath' h' =>
      -- the site decides the string and the file, and the file and the tenant the command
      obtain rfl : s = s' := Except.ok.inj (hs.symm.trans hs')
      obtain rfl : path = path' := Option.some.inj (hpath.symm.trans hpath')
      obtain rfl : command = command' := Except.ok.inj (h.symm.trans h')
      rfl

theorem of_firstColumn (h : call.IsOwn site cache t calls route)
    (hquestion : call.question = .firstColumn) (hroute : route ≠ .objectDetail) :
    call.target.database = none := by
  cases h with
  | listing _ s path command hs hpath h => rfl
  | plain _ s command source hs hroute => rfl
  | detail s command source listing rows db hs hlists hdb hname hcalls => exact absurd rfl hroute

/-- **The detail** runs in a database that the listing just before it has named. -/
theorem of_objectDetail (h : call.IsOwn site cache t calls .objectDetail)
    (hquestion : call.question = .firstColumn) :
    ∃ listing rows db, calls = [listing, call] ∧ listing.question = .databases ∧
      site.runner.databases listing.target listing.command = .ok rows ∧ db ∈ rows ∧
      isAllBlank db.name = false ∧ call.target.database = some db.name := by
  -- on this route a first column is asked with the database of a row
  cases h with
  | listing _ s path command hs hpath h => cases hquestion
  | plain _ s command source hs hroute => exact absurd rfl hroute
  | detail s command source listing rows db hs hlists hdb hname hcalls =>
    exact ⟨listing, rows, db, hcalls, hlists.question, hlists.rows, hdb, hname, rfl⟩

end Call.IsOwn

/-- Only one path has the route of the detail. -/
theorem ofPath_eq_objectDetail_iff {path : String} :
    Route.ofPath path = .objectDetail ↔ path = "/api/dbobject" := by
  constructor
  · intro h
    rw [Route.ofPath] at h
    cases hfind : Route.named.find? (·.1 = path) with
    | none =>
      rw [hfind] at h
      cases h
    | some entry =>
      rw [hfind] at h
      -- the table has one path for the detail, and all other paths are of data sources
      have hnamed : ∀ e ∈ Route.named, e.2 = .objectDetail → e.1 = "/api/dbobject" := by decide
      have hpath : entry.1 = path := by simpa using List.find?_some hfind
      rw [← hpath]
      exact hnamed entry (List.mem_of_find?_eq_some hfind) h
  · rintro rfl
    decide

/-- **What is guaranteed about a call** of a request under some settings: where it runs, and with
which database on that server. -/
structure Call.ReachesOwnServer (c : Call) (s : Settings) (site : Site) (cache : DescriptorCache)
    (r : Request) (calls : List Call) : Prop where
  /-- It runs at the one server of the request's context. -/
  server : ∃ name, r.context? = some name ∧ s.Serves name c.target.connectionString ∧
    ∀ other, s.Serves name other → other = c.target.connectionString
  /-- The listing runs in no other database, with a command that its descriptor and the tenant
  decide. -/
  listing : c.question = .databases → c.target.database = none ∧ ∃ t path shared,
    tenant? site r = some t ∧ site.files.find? Catalog.databasesDescriptor = some path ∧
    (cache.load site.files path).1 = .ok shared ∧
    listingCommand shared.descriptor t = .ok c.command
  /-- Other commands run in no other database either. -/
  plain : c.question = .firstColumn → r.target.path ≠ "/api/dbobject" → c.target.database = none
  /-- But for the detail, which runs in a database that the listing just before it has named. -/
  detail : c.question = .firstColumn → r.target.path = "/api/dbobject" → ∃ before rows db,
    calls = [before, c] ∧ before.question = .databases ∧
    site.runner.databases before.target before.command = .ok rows ∧ db ∈ rows ∧
    isAllBlank db.name = false ∧ c.target.database = some db.name

/-- **Every request reaches the server of its own context, and no other.** Without a context that
has a server nothing is asked. Two requests for one tenant ask for the listing with the same call,
whatever their queries are. -/
theorem calls_reach_own_server {text : String} {s : Settings} (h : Settings.parse text = .ok s)
    (files : FileTree) (runner : Runner) (cache : DescriptorCache) (r : Request) :
    let site : Site := ⟨.ofSettings s, files, runner⟩
    (∀ call ∈ callsOf site cache r,
      call.ReachesOwnServer s site cache r (callsOf site cache r)) ∧
    ((∀ name connection, r.context? = some name → ¬ s.Serves name connection) →
      callsOf site cache r = []) ∧
    ∀ r', tenant? site r' = tenant? site r →
      ∀ call ∈ callsOf site cache r, ∀ call' ∈ callsOf site cache r',
        call.question = .databases → call'.question = .databases → call = call' := by
  intro site
  have haccepted : s.IsAccepted := Settings.isAccepted_of_parse h
  -- a call is for the tenant of the request, and so runs at the server of its context
  have hserver : ∀ call ∈ callsOf site cache r, ∃ name, r.context? = some name ∧
      s.Serves name call.target.connectionString := by
    intro call hcall
    obtain ⟨t, ht, hown⟩ := isOwn_of_mem_callsOf hcall
    exact haccepted.serves_of_tenant? rfl ht hown.connectionString
  refine ⟨fun call hcall => ?_, fun hnone => ?_, ?_⟩
  · obtain ⟨t, ht, hown⟩ := isOwn_of_mem_callsOf hcall
    -- the clauses about one call: its server, the listing, other questions, and the detail
    refine ⟨?_, fun hquestion => ?_, fun hquestion hpath => ?_, fun hquestion hpath => ?_⟩
    · obtain ⟨name, hname, hserves⟩ := hserver call hcall
      exact ⟨name, hname, hserves, fun other ho => haccepted.serves_unique hserves ho⟩
    · obtain ⟨hdatabase, path, shared, hcommand⟩ := hown.of_databases hquestion
      exact ⟨hdatabase, t, path, shared, ht, hcommand⟩
    · exact hown.of_firstColumn hquestion fun hroute =>
        hpath (ofPath_eq_objectDetail_iff.1 hroute)
    · rw [ofPath_eq_objectDetail_iff.2 hpath] at hown
      exact hown.of_objectDetail hquestion
  · -- without a server for the context a call would have none to go to
    refine List.eq_nil_iff_forall_not_mem.2 fun call hcall => ?_
    obtain ⟨name, hname, hserves⟩ := hserver call hcall
    exact hnone name _ hname hserves
  · -- both requests have the tenant, and the listing depends on the tenant alone
    intro r' ht' call hcall call' hcall' hquestion hquestion'
    obtain ⟨t, ht, hown⟩ := isOwn_of_mem_callsOf hcall
    obtain ⟨t', ht'', hown'⟩ := isOwn_of_mem_callsOf hcall'
    rw [ht', ht] at ht''
    obtain rfl := Option.some.inj ht''
    exact hown.databases_unique hown' hquestion hquestion'

/-! ### A detail for one of two contexts -/

/-- Settings with two contexts, one of which has a connection string. -/
def twoContexts : String :=
  "\x7b\"connectionStrings\": \x7b\"DevDb\": \"postgres://gateway@localhost/app\"\x7d, " ++
    "\"contexts\": \x7b\"Dev\": \x7b\"connectionStringKey\": \" DevDb \", " ++
    "\"databases\": [\x7b\"abbr\": \"log\", \"name\": \"log_dev\"\x7d]\x7d, " ++
    "\"qa\": \x7b\x7d\x7d\x7d"

def twoContextSettings : Settings where
  connectionStrings := [("DevDb", "postgres://gateway@localhost/app")]
  contexts := [("Dev", ⟨"", " DevDb ", [⟨"log", "log_dev"⟩]⟩), ("qa", {})]

def detailFiles : FileTree :=
  (FileTree.empty.write ⟨[.name "dbdatabases.sqlds"], false, 17⟩ (Utf8.encode
    ("<Command><Parameters><Parameter name='dbmappings'/></Parameters>" ++
      "<CommandText>CALL f(@dbmappings)</CommandText></Command>"))).write
  ⟨[.name "dbobject.jsonds"], false, 15⟩ (Utf8.encode
    "<Command><CommandText>CALL g()</CommandText></Command>")

/-- A runner that lists one database. -/
def logRunner : Runner :=
  ⟨fun _ _ => .ok ["[1]"], fun _ _ => .ok [⟨1, "log", "log_dev", "2020-01-01", 150⟩]⟩

/-- A request for a detail under a context. -/
def detailRequest (context : String) : Request :=
  ⟨"GET", .parse ("/api/dbobject?objdb=LOG&ctx=" ++ context), []⟩

def detailCall : Call :=
  ⟨.firstColumn, ⟨"postgres://gateway@localhost/app", some "log_dev"⟩, ⟨⟨"CALL g()", []⟩, 30⟩,
    ⟨⟨[.name "dbobject.jsonds"], false, 15⟩, .ofList [("ctx", .text "DEV")]⟩⟩

theorem not_serves_qa (connection : String) : ¬ twoContextSettings.Serves "qa" connection := by
  rintro ⟨c, hc, hkey, hconnection, -⟩
  simp only [twoContextSettings, List.mem_cons, List.not_mem_nil, or_false] at hc hconnection
  rcases hc with rfl | rfl
  · revert hkey
    decide +kernel
  · have hempty : trim "" = "DevDb" := congrArg Prod.fst hconnection
    revert hempty
    decide

/-- The detail runs at the server of its context, which the settings spell in another way, in the
database that the listing names; and for the other context nothing is asked. -/
theorem calls_reach_own_server_detail :
    Settings.parse twoContexts = .ok twoContextSettings ∧
      let site : Site := ⟨.ofSettings twoContextSettings, detailFiles, logRunner⟩
      let cache : DescriptorCache := { isEnabled := true }
      let calls := callsOf site cache (detailRequest "DEV")
      detailCall ∈ calls ∧
      detailCall.ReachesOwnServer twoContextSettings site cache (detailRequest "DEV") calls ∧
      (detailRequest "qa").context? = some "qa" ∧ callsOf site cache (detailRequest "qa") = [] := by
  have h : Settings.parse twoContexts = .ok twoContextSettings :=
    except_eq_ok_of_toOption (by decide +kernel)
  have hdetail : detailCall ∈ callsOf ⟨.ofSettings twoContextSettings, detailFiles, logRunner⟩
      { isEnabled := true } (detailRequest "DEV") := by decide +kernel
  have hqa : (detailRequest "qa").context? = some "qa" := by decide +kernel
  refine ⟨h, hdetail, ?_, hqa, ?_⟩
  · exact (calls_reach_own_server h detailFiles logRunner _ _).1 _ hdetail
  · -- the other context has no server, as its connection string is blank
    refine (calls_reach_own_server h detailFiles logRunner _ _).2.1 fun name connection hname => ?_
    rw [hqa] at hname
    rw [← Option.some.inj hname]
    exact not_serves_qa connection

end QueryGateway
