import QueryGateway.Proofs.Http.OwnServer
import QueryGateway.Proofs.Http.StaticFiles
import QueryGateway.Proofs.Settings.Selection

/-!
# Outcomes of requests for data sources

What comes of a request for a data source is decided step by step, and the first step that fails
settles the answer: the endpoint, the file, the connection string, the descriptor, the statement.
The runner is reached behind the last step, so it is asked once or not at all, and exactly if a
query of the source is ready (`SourceQuery.IsReady`).

`SourceOutcome` lists all outcomes: what each rests on, its answer, and what it leaves and asks. An
outcome rests on conditions about the settings, the files and the request, not on the steps of the
gateway, so that a step stands in it only where its result counts. In particular a tenant without a
connection string is told so whatever the descriptor holds, and the descriptor is not read.

`dataSource_outcome_iff` says that this list is complete and that its conditions are exact. Both
directions go through the courses of a data source: every outcome is that of a course
(`SourceOutcome.exists_course`), and every course has an outcome (`SourceOutcome.of_course`).
-/

namespace QueryGateway

open Http Text

/-! ### Errors before the runner is asked -/

/-- A descriptor that does not load cannot be read or not be compiled. -/
theorem load_eq_error {cache : DescriptorCache} {files : FileTree} {path : FilePath}
    {e : GatewayError} (h : (cache.load files path).1 = .error e) :
    (∃ fault, e = .file fault) ∨ ∃ fault, e = .descriptor fault := by
  -- by the place where loading stops: an entry that is kept, the file, the compiler
  rw [DescriptorCache.load] at h
  split at h
  · cases h
  · split at h
    next e' hcompile =>
      obtain rfl := Except.error.inj h
      rw [compileFile] at hcompile
      split at hcompile
      next fault hread => exact .inl ⟨fault, (Except.error.inj hcompile).symm⟩
      -- the file is read, and what it says does not compile
      next source hread =>
        cases hsource : CommandDescriptor.compile source with
        | ok d =>
          rw [hsource] at hcompile
          cases hcompile
        | error fault =>
          rw [hsource] at hcompile
          exact .inr ⟨fault, (Except.error.inj hcompile).symm⟩
    · cases h

/-- A command without a statement has a bad descriptor, or the request does not supply it. -/
theorem statement_eq_error {b : BoundCommand} {e : GatewayError} (h : b.statement = .error e) :
    (∃ fault, e = .descriptor fault) ∨ ∃ fault, e = .badRequest fault := by
  -- what the builder reports is a fault of the descriptor, whichever builder it is
  have hdescriptor : ∀ x : Except DescriptorError Statement,
      x.mapError GatewayError.descriptor = .error e → ∃ fault, e = .descriptor fault := by
    intro x hx
    cases x with
    | ok statement => cases hx
    | error fault => exact ⟨fault, (Except.error.inj hx).symm⟩
  -- the slots are asked for first, and what is missing there is the request's
  rw [BoundCommand.statement] at h
  split at h
  next fault hslots => exact .inr ⟨fault, (Except.error.inj h).symm⟩
  · split at h
    · cases h
    · exact .inl (hdescriptor _ h)
    · exact .inl (hdescriptor _ h)

/-! ### Outcomes -/

/-- **A query of a data source:** what is asked for, whom for and what from. -/
structure SourceQuery where
  endpoint : String
  tenant : Tenant
  /-- The file of the descriptor. -/
  path : FilePath
  connection : String
  shared : SharedDescriptor
  statement : Statement

/-- A request that a descriptor answers, before anything is known about what is in it. -/
structure IsDescribed (s : Settings) (files : FileTree) (r : Request) (endpoint : String)
    (t : Tenant) (path : FilePath) : Prop where
  named : endpoint? r.target.path = some endpoint
  isSafe : IsSafeName endpoint
  selects : s.Selects r.context? (some t)
  found : files.find? (descriptorName endpoint r.accepted.preferred) = some path

/-- A request that a static file may answer: there is no tenant, or no descriptor. -/
structure IsUndescribed (s : Settings) (files : FileTree) (r : Request) (endpoint : String)
    (tenant : Option Tenant) : Prop where
  named : endpoint? r.target.path = some endpoint
  isSafe : IsSafeName endpoint
  selects : s.Selects r.context? tenant
  absent : tenant = none ∨ files.find? (descriptorName endpoint r.accepted.preferred) = none

/-- A described request for a tenant with a connection string: from here on only the descriptor and
the values of the request can stand in the way. -/
structure IsConnected (s : Settings) (files : FileTree) (r : Request) (endpoint : String)
    (t : Tenant) (path : FilePath) (connection : String) : Prop
    extends IsDescribed s files r endpoint t path where
  connects : s.Connects t connection

namespace SourceQuery

/-- **A query is ready** to be asked: its descriptor loads, and the values of the request make a
statement of it. Nothing is left that could refuse it before the runner does. -/
structure IsReady (q : SourceQuery) (s : Settings) (site : Site) (cache : DescriptorCache)
    (r : Request) : Prop
    extends IsConnected s site.files r q.endpoint q.tenant q.path q.connection where
  loads : (cache.load site.files q.path).1 = .ok q.shared
  states : (q.shared.descriptor.bind (.ofQueryPairs r.pairs)).statement = .ok q.statement

def target (q : SourceQuery) : ConnectionTarget := ⟨q.connection, none⟩

def command (q : SourceQuery) : PreparedCommand :=
  ⟨q.statement, q.shared.descriptor.timeoutSeconds⟩

/-- The call that a query is asked with. -/
def call (q : SourceQuery) (r : Request) : Call :=
  ⟨.firstColumn, q.target, q.command, ⟨q.path, .ofQueryPairs r.pairs⟩⟩

/-- What is left behind once a query has been asked. -/
def progress (q : SourceQuery) (files : FileTree) (cache : DescriptorCache) (r : Request) :
    Progress :=
  ⟨(cache.load files q.path).2, [q.call r]⟩

end SourceQuery

/-- Content that is not blank, as it goes to the client. -/
def contentAnswer (r : Request) (body : String) : Response :=
  { status := 200, contentType := some r.accepted.preferred.contentType, body }

/-- **All outcomes of a request for a data source,** each with its own conditions. They are in the
order in which the program comes to them. -/
inductive SourceOutcome (s : Settings) (site : Site) (cache : DescriptorCache) (r : Request) :
    Response → Progress → Prop where
  /-- The path names no endpoint. -/
  | endpointless (h : endpoint? r.target.path = none) :
    SourceOutcome s site cache r (.ofError (.notFound r.target.path)) ⟨cache, []⟩
  /-- The endpoint could lead elsewhere. -/
  | unsafeName (endpoint : String) (hnamed : endpoint? r.target.path = some endpoint)
      (h : ¬ IsSafeName endpoint) :
    SourceOutcome s site cache r (.ofError (.notFound endpoint)) ⟨cache, []⟩
  /-- There is no file. -/
  | fileless (endpoint : String) (tenant : Option Tenant)
      (hstatic : IsUndescribed s site.files r endpoint tenant)
      (h : site.files.find? (staticName endpoint r.accepted.preferred tenant) = none) :
    SourceOutcome s site cache r (.ofError (.notFound endpoint)) ⟨cache, []⟩
  /-- There is a static file that cannot be read, or is no text. -/
  | unreadable (endpoint : String) (tenant : Option Tenant) (path : FilePath) (e : FileError)
      (hstatic : IsUndescribed s site.files r endpoint tenant)
      (hfile : site.files.find? (staticName endpoint r.accepted.preferred tenant) = some path)
      (h : site.files.readText path = .error e) :
    SourceOutcome s site cache r (.ofError (.file e)) ⟨cache, []⟩
  /-- The static file is blank. -/
  | blankFile (endpoint : String) (tenant : Option Tenant) (path : FilePath) (text : String)
      (hstatic : IsUndescribed s site.files r endpoint tenant)
      (hfile : site.files.find? (staticName endpoint r.accepted.preferred tenant) = some path)
      (hread : site.files.readText path = .ok text) (h : isAllBlank text = true) :
    SourceOutcome s site cache r (.ofError (.notFound endpoint)) ⟨cache, []⟩
  /-- The static file goes to the client as it is. -/
  | verbatim (endpoint : String) (tenant : Option Tenant) (path : FilePath) (text : String)
      (hstatic : IsUndescribed s site.files r endpoint tenant)
      (hfile : site.files.find? (staticName endpoint r.accepted.preferred tenant) = some path)
      (hread : site.files.readText path = .ok text) (h : isAllBlank text = false) :
    SourceOutcome s site cache r (contentAnswer r text) ⟨cache, []⟩
  /-- The tenant has no connection string, whatever is in the descriptor. -/
  | unconnected (endpoint : String) (t : Tenant) (path : FilePath)
      (hdescribed : IsDescribed s site.files r endpoint t path)
      (h : ∀ connection, ¬ s.Connects t connection) :
    SourceOutcome s site cache r (.ofError (.badConnection t.key)) ⟨cache, []⟩
  /-- The descriptor cannot be read. -/
  | unread (endpoint : String) (t : Tenant) (path : FilePath) (connection : String) (e : FileError)
      (hconnected : IsConnected s site.files r endpoint t path connection)
      (h : (cache.load site.files path).1 = .error (.file e)) :
    SourceOutcome s site cache r (.ofError (.file e)) ⟨(cache.load site.files path).2, []⟩
  /-- The descriptor does not compile. -/
  | uncompiled (endpoint : String) (t : Tenant) (path : FilePath) (connection : String)
      (e : DescriptorError) (hconnected : IsConnected s site.files r endpoint t path connection)
      (h : (cache.load site.files path).1 = .error (.descriptor e)) :
    SourceOutcome s site cache r (.ofError (.descriptor e)) ⟨(cache.load site.files path).2, []⟩
  /-- The descriptor makes no statement. -/
  | unstated (endpoint : String) (t : Tenant) (path : FilePath) (connection : String)
      (shared : SharedDescriptor) (e : DescriptorError)
      (hconnected : IsConnected s site.files r endpoint t path connection)
      (hloads : (cache.load site.files path).1 = .ok shared)
      (h : (shared.descriptor.bind (.ofQueryPairs r.pairs)).statement = .error (.descriptor e)) :
    SourceOutcome s site cache r (.ofError (.descriptor e)) ⟨(cache.load site.files path).2, []⟩
  /-- The request lacks a value. -/
  | unsupplied (endpoint : String) (t : Tenant) (path : FilePath) (connection : String)
      (shared : SharedDescriptor) (fault : RequestFault)
      (hconnected : IsConnected s site.files r endpoint t path connection)
      (hloads : (cache.load site.files path).1 = .ok shared)
      (h : (shared.descriptor.bind (.ofQueryPairs r.pairs)).statement =
        .error (.badRequest fault)) :
    SourceOutcome s site cache r (.ofError (.badRequest fault))
      ⟨(cache.load site.files path).2, []⟩
  /-- The runner fails. -/
  | failed (q : SourceQuery) (e : GatewayError) (hready : q.IsReady s site cache r)
      (h : site.runner.firstColumn q.target q.command = .error e) :
    SourceOutcome s site cache r (.ofError e) (q.progress site.files cache r)
  /-- The texts of the runner are blank. -/
  | blankResult (q : SourceQuery) (parts : List String) (hready : q.IsReady s site cache r)
      (hparts : site.runner.firstColumn q.target q.command = .ok parts)
      (h : isAllBlank (String.join parts) = true) :
    SourceOutcome s site cache r (.ofError (.notFound q.endpoint)) (q.progress site.files cache r)
  /-- The texts of the runner go to the client, one behind the other. -/
  | answered (q : SourceQuery) (parts : List String) (hready : q.IsReady s site cache r)
      (hparts : site.runner.firstColumn q.target q.command = .ok parts)
      (h : isAllBlank (String.join parts) = false) :
    SourceOutcome s site cache r (contentAnswer r (String.join parts))
      (q.progress site.files cache r)

/-! ### Sites of settings -/

/-- **A site of settings** that have been read. The files and the runner are free, as settings say
nothing about them. -/
structure Site.IsOf (site : Site) (s : Settings) : Prop where
  isValid : s.IsValid
  isAccepted : s.IsAccepted
  registry : site.registry = .ofSettings s

theorem Site.isOf_of_parse {text : String} {s : Settings} (h : Settings.parse text = .ok s)
    (files : FileTree) (runner : Runner) : Site.IsOf ⟨.ofSettings s, files, runner⟩ s := by
  obtain ⟨tree, -, -, hvalid⟩ := Settings.exists_tree_of_parse h
  exact ⟨hvalid, Settings.isAccepted_of_parse h, rfl⟩

section

variable {s : Settings} {site : Site} {cache : DescriptorCache} {r : Request} {endpoint : String}

namespace Site.IsOf

/-- A context is selected by the settings iff the registry finds the tenant of the request for
it. -/
theorem selects_iff (h : site.IsOf s) {tenant : Option Tenant} :
    s.Selects r.context? tenant ↔ tenant? site r = tenant := by
  rw [tenant?, h.registry]
  cases tenant with
  | some t =>
    simp only [Settings.Selects, Option.bind_eq_some_iff, h.isValid.find?_eq_some_iff]
  | none =>
    rw [Settings.Selects, Option.bind_eq_none_iff]
    -- no context, or none that is configured: the registry finds nothing in either case
    constructor
    · intro hnone name hname
      rw [Option.eq_none_iff_forall_ne_some]
      intro t ht
      obtain ⟨c, hc, hkey, -⟩ := h.isValid.find?_eq_some_iff.1 ht
      exact hnone name hname c hc hkey
    · intro hnone name hname c hc hkey
      have hfind := h.isValid.find?_eq_some_iff.2 ⟨c, hc, hkey, rfl⟩
      rw [hnone name hname] at hfind
      cases hfind

theorem connects_iff (h : site.IsOf s) {t : Tenant} {connection : String} :
    s.Connects t connection ↔ site.registry.connectionString t = .ok connection := by
  rw [h.registry, h.isAccepted.connects_iff]

theorem connectionString_eq_error_iff (h : site.IsOf s) {t : Tenant} {e : GatewayError} :
    site.registry.connectionString t = .error e ↔
      (∀ connection, ¬ s.Connects t connection) ∧ e = .badConnection t.key := by
  rw [h.registry, h.isAccepted.connectionString_eq_error_iff]

/-- A request is described iff its endpoint resolves to the descriptor, for the tenant that is
found. -/
theorem isDescribed_iff (h : site.IsOf s) {t : Tenant} {path : FilePath} :
    IsDescribed s site.files r endpoint t path ↔
      endpoint? r.target.path = some endpoint ∧
        resolveArtifact site.files (tenant? site r) endpoint r.accepted.preferred =
          .templated path t := by
  rw [resolveArtifact_eq_templated_iff, isSafeEndpoint_eq_true_iff]
  constructor
  · rintro ⟨hnamed, hsafe, hselects, hfound⟩
    exact ⟨hnamed, hsafe, h.selects_iff.1 hselects, hfound⟩
  · rintro ⟨hnamed, hsafe, htenant, hfound⟩
    exact ⟨hnamed, hsafe, h.selects_iff.2 htenant, hfound⟩

/-- Where no descriptor answers, what does is the static file. -/
theorem resolveArtifact_eq (h : site.IsOf s) {tenant : Option Tenant}
    (hstatic : IsUndescribed s site.files r endpoint tenant) :
    resolveArtifact site.files (tenant? site r) endpoint r.accepted.preferred =
      staticArtifact site.files tenant endpoint r.accepted.preferred := by
  unfold resolveArtifact
  rw [h.selects_iff.1 hstatic.selects, if_pos (isSafeEndpoint_eq_true_iff.2 hstatic.isSafe)]
  cases tenant with
  | none => rfl
  | some t => simp only [hstatic.absent.resolve_left (Option.some_ne_none t)]

theorem isUndescribed (h : site.IsOf s) (hnamed : endpoint? r.target.path = some endpoint)
    (hsafe : isSafeEndpoint endpoint = true)
    (hnot : ∀ path t, resolveArtifact site.files (tenant? site r) endpoint r.accepted.preferred ≠
      .templated path t) : IsUndescribed s site.files r endpoint (tenant? site r) where
  named := hnamed
  isSafe := isSafeEndpoint_eq_true_iff.1 hsafe
  selects := h.selects_iff.2 rfl
  -- a tenant without a descriptor resolves to no templated artifact
  absent := by
    cases ht : tenant? site r with
    | none => exact .inl rfl
    | some t =>
      refine .inr (Option.eq_none_iff_forall_ne_some.2 fun path hpath => hnot path t ?_)
      exact resolveArtifact_eq_templated_iff.2 ⟨hsafe, ht, hpath⟩

end Site.IsOf

/-! ### Courses from conditions -/

theorem Http.DataSourceCourse.nothing (hnamed : endpoint? r.target.path = some endpoint)
    (hnothing : resolveArtifact site.files (tenant? site r) endpoint r.accepted.preferred =
      .nothing) :
    DataSourceCourse site cache r ⟨.error (.notFound endpoint), cache, []⟩ := by
  have hcourse : DataSourceCourse site cache r _ :=
    .resolved endpoint ⟨.ok "", cache, []⟩ hnamed (hnothing ▸ .nothing)
  rwa [Except.bind, contentResponse_empty] at hcourse

/-- A request that no descriptor answers reads the static file. -/
theorem Site.IsOf.static (h : site.IsOf s) {tenant : Option Tenant} {path : FilePath}
    (hstatic : IsUndescribed s site.files r endpoint tenant)
    (hfile : site.files.find? (staticName endpoint r.accepted.preferred tenant) = some path) :
    DataSourceCourse site cache r
      ⟨((site.files.readText path).mapError .file).bind
        (contentResponse r.accepted.preferred · endpoint), cache, []⟩ := by
  -- the course is that of the artifact, and the artifact is the static file
  refine .resolved endpoint ⟨(site.files.readText path).mapError .file, cache, []⟩
    hstatic.named ?_
  rw [h.resolveArtifact_eq hstatic, staticArtifact]
  simp only [hfile]
  exact .static path

/-- A described request with a connection string runs its command. -/
theorem Site.IsOf.run (h : site.IsOf s) {t : Tenant} {path : FilePath} {connection : String}
    {c : Course String} (hconnected : IsConnected s site.files r endpoint t path connection)
    (hc : RunCourse site cache ⟨connection, none⟩ ⟨path, .ofQueryPairs r.pairs⟩ c) :
    DataSourceCourse site cache r
      ⟨c.outcome.bind (contentResponse r.accepted.preferred · endpoint), c.cache, c.calls⟩ := by
  obtain ⟨hnamed, hresolve⟩ := h.isDescribed_iff.1 hconnected.toIsDescribed
  refine .resolved endpoint c hnamed ?_
  rw [hresolve]
  exact .run path t connection c (h.connects_iff.1 hconnected.connects) hc

/-- A descriptor that loads leaves the statement to be made. -/
theorem prepared_eq {files : FileTree} (source : CommandSource) {shared : SharedDescriptor}
    (h : (cache.load files source.descriptor).1 = .ok shared) :
    prepared files cache source = (shared.descriptor.bind source.values).statement.map
      (⟨·, shared.descriptor.timeoutSeconds⟩) := by
  rw [prepared, h]
  change (shared.descriptor.bind source.values).statement >>= _ = _
  cases (shared.descriptor.bind source.values).statement with
  | ok statement => rfl
  | error e => rfl

theorem prepared_eq_error {files : FileTree} (source : CommandSource) {e : GatewayError}
    (h : (cache.load files source.descriptor).1 = .error e) :
    prepared files cache source = .error e := by
  rw [prepared, h]
  rfl

theorem SourceQuery.IsReady.prepared_eq {q : SourceQuery} (h : q.IsReady s site cache r) :
    prepared site.files cache ⟨q.path, .ofQueryPairs r.pairs⟩ = .ok q.command := by
  rw [QueryGateway.prepared_eq _ h.loads, h.states]
  rfl

theorem contentResponse_of_blank {body : String} (h : isAllBlank body = true) (what : String) :
    contentResponse r.accepted.preferred body what = .error (.notFound what) :=
  if_pos h

theorem contentResponse_of_not_blank {body : String} (h : isAllBlank body = false)
    (what : String) :
    contentResponse r.accepted.preferred body what = .ok (contentAnswer r body) := by
  rw [contentResponse, h]
  rfl

/-! ### Outcomes and courses -/

/-- **Every outcome is that of a course.** -/
theorem SourceOutcome.exists_course (h : site.IsOf s) {response : Response} {p : Progress}
    (houtcome : SourceOutcome s site cache r response p) :
    ∃ c, DataSourceCourse site cache r c ∧ response = responseOf c.outcome ∧
      p = ⟨c.cache, c.calls⟩ := by
  -- by the outcomes in the order of the program: each names the course that it comes of
  cases houtcome with
  | endpointless h => exact ⟨_, .endpointless h, rfl, rfl⟩
  | unsafeName endpoint hnamed hunsafe =>
    refine ⟨_, .nothing hnamed ?_, rfl, rfl⟩
    unfold resolveArtifact
    rw [if_neg (mt isSafeEndpoint_eq_true_iff.1 hunsafe)]
  | fileless endpoint tenant hstatic hnone =>
    refine ⟨_, .nothing hstatic.named ?_, rfl, rfl⟩
    rw [h.resolveArtifact_eq hstatic, staticArtifact]
    simp only [hnone]
  -- the file is found, and what reading it gives decides
  | unreadable endpoint tenant path e hstatic hfile hread =>
    refine ⟨_, h.static hstatic hfile, ?_, rfl⟩
    rw [hread]
    rfl
  | blankFile endpoint tenant path text hstatic hfile hread hblank =>
    refine ⟨_, h.static hstatic hfile, ?_, rfl⟩
    rw [hread, Except.mapError, Except.bind, contentResponse_of_blank hblank]
    rfl
  | verbatim endpoint tenant path text hstatic hfile hread hblank =>
    refine ⟨_, h.static hstatic hfile, ?_, rfl⟩
    rw [hread, Except.mapError, Except.bind, contentResponse_of_not_blank hblank]
    rfl
  | unconnected endpoint t path hdescribed hnone =>
    obtain ⟨hnamed, hresolve⟩ := h.isDescribed_iff.1 hdescribed
    refine ⟨_, .resolved endpoint ⟨.error (.badConnection t.key), cache, []⟩ hnamed ?_, rfl, rfl⟩
    rw [hresolve]
    exact .unconnected path t _ (h.connectionString_eq_error_iff.2 ⟨hnone, rfl⟩)
  -- from here on the command is run
  | unread endpoint t path connection e hconnected hload =>
    exact ⟨_, h.run hconnected (.unprepared (.file e) (prepared_eq_error _ hload)), rfl, rfl⟩
  | uncompiled endpoint t path connection e hconnected hload =>
    exact ⟨_, h.run hconnected (.unprepared (.descriptor e) (prepared_eq_error _ hload)), rfl, rfl⟩
  | unstated endpoint t path connection shared e hconnected hload hstatement =>
    refine ⟨_, h.run hconnected (.unprepared (.descriptor e) ?_), rfl, rfl⟩
    rw [prepared_eq _ hload, hstatement]
    rfl
  | unsupplied endpoint t path connection shared fault hconnected hload hstatement =>
    refine ⟨_, h.run hconnected (.unprepared (.badRequest fault) ?_), rfl, rfl⟩
    rw [prepared_eq _ hload, hstatement]
    rfl
  | failed q e hready hfails =>
    refine ⟨_, h.run hready.toIsConnected (.asked q.command hready.prepared_eq), ?_, rfl⟩
    change _ = responseOf (((site.runner.firstColumn q.target q.command).map _).bind _)
    rw [hfails]
    rfl
  | blankResult q parts hready hparts hblank =>
    refine ⟨_, h.run hready.toIsConnected (.asked q.command hready.prepared_eq), ?_, rfl⟩
    change _ = responseOf (((site.runner.firstColumn q.target q.command).map _).bind _)
    rw [hparts, Except.map, Except.bind, contentResponse_of_blank hblank]
    rfl
  | answered q parts hready hparts hblank =>
    refine ⟨_, h.run hready.toIsConnected (.asked q.command hready.prepared_eq), ?_, rfl⟩
    change _ = responseOf (((site.runner.firstColumn q.target q.command).map _).bind _)
    rw [hparts, Except.map, Except.bind, contentResponse_of_not_blank hblank]
    rfl

/-- What comes of running the command of a described request. -/
theorem SourceOutcome.of_run {t : Tenant} {path : FilePath} {connection : String}
    {c : Course String} (hconnected : IsConnected s site.files r endpoint t path connection)
    (hc : RunCourse site cache ⟨connection, none⟩ ⟨path, .ofQueryPairs r.pairs⟩ c) :
    SourceOutcome s site cache r
      (responseOf (c.outcome.bind (contentResponse r.accepted.preferred · endpoint)))
      ⟨c.cache, c.calls⟩ := by
  -- loading first, then the statement, then the answer of the runner: each may end it
  cases hload : (cache.load site.files path).1 with
  | error e =>
    have hprepared := prepared_eq_error ⟨path, .ofQueryPairs r.pairs⟩ hload
    cases hc with
    | asked command hcommand => cases hprepared.symm.trans hcommand
    | unprepared e' he =>
      obtain rfl := Except.error.inj (hprepared.symm.trans he)
      obtain ⟨fault, rfl⟩ | ⟨fault, rfl⟩ := load_eq_error hload
      · exact .unread endpoint t path connection fault hconnected hload
      · exact .uncompiled endpoint t path connection fault hconnected hload
  | ok shared =>
    -- loaded, so the command is there iff its statement is
    have hprepared := prepared_eq ⟨path, .ofQueryPairs r.pairs⟩ hload
    cases hstatement : (shared.descriptor.bind (.ofQueryPairs r.pairs)).statement with
    | error e =>
      rw [hstatement] at hprepared
      cases hc with
      | asked command hcommand => cases hprepared.symm.trans hcommand
      | unprepared e' he =>
        obtain rfl := Except.error.inj (hprepared.symm.trans he)
        obtain ⟨fault, rfl⟩ | ⟨fault, rfl⟩ := statement_eq_error hstatement
        · exact .unstated endpoint t path connection shared fault hconnected hload hstatement
        · exact .unsupplied endpoint t path connection shared fault hconnected hload hstatement
    | ok statement =>
      rw [hstatement] at hprepared
      cases hc with
      | unprepared e he => cases hprepared.symm.trans he
      | asked command hcommand =>
        obtain rfl := Except.ok.inj (hprepared.symm.trans hcommand)
        let q : SourceQuery := ⟨endpoint, t, path, connection, shared, statement⟩
        have hready : q.IsReady s site cache r := ⟨hconnected, hload, hstatement⟩
        change SourceOutcome s site cache r
          (responseOf (((site.runner.firstColumn q.target q.command).map _).bind _))
          (q.progress site.files cache r)
        -- the runner answers; what it gives is an error, blank, or served
        cases hparts : site.runner.firstColumn q.target q.command with
        | error e => exact .failed q e hready hparts
        | ok parts =>
          rw [Except.map, Except.bind]
          cases hblank : isAllBlank (String.join parts) with
          | true =>
            rw [contentResponse_of_blank hblank]
            exact .blankResult q parts hready hparts hblank
          | false =>
            rw [contentResponse_of_not_blank hblank]
            exact .answered q parts hready hparts hblank

/-- **Every course has an outcome.** -/
theorem SourceOutcome.of_course (h : site.IsOf s) {c : Course Response}
    (hc : DataSourceCourse site cache r c) :
    SourceOutcome s site cache r (responseOf c.outcome) ⟨c.cache, c.calls⟩ := by
  cases hc with
  | endpointless hnone => exact .endpointless hnone
  | resolved endpoint c hnamed hc =>
    -- the artifact is named, so that the cases speak of what the request resolves to
    generalize hartifact :
      resolveArtifact site.files (tenant? site r) endpoint r.accepted.preferred = a at hc
    cases hc with
    | unconnected path t e herror =>
      obtain ⟨hnone, rfl⟩ := h.connectionString_eq_error_iff.1 herror
      exact .unconnected endpoint t path (h.isDescribed_iff.2 ⟨hnamed, hartifact⟩) hnone
    | run path t connection c hconnection hrun =>
      exact .of_run ⟨h.isDescribed_iff.2 ⟨hnamed, hartifact⟩, h.connects_iff.2 hconnection⟩ hrun
    -- a static file: unreadable, blank or served
    | static path =>
      obtain ⟨hsafe, hfile⟩ := find?_of_resolveArtifact_eq_static hartifact
      have hstatic := h.isUndescribed hnamed hsafe fun path' t ht => by
        cases hartifact.symm.trans ht
      cases hread : site.files.readText path with
      | error e => exact .unreadable endpoint _ path e hstatic hfile hread
      | ok text =>
        rw [Except.mapError, Except.bind]
        cases hblank : isAllBlank text with
        | true =>
          rw [contentResponse_of_blank hblank]
          exact .blankFile endpoint _ path text hstatic hfile hread hblank
        | false =>
          rw [contentResponse_of_not_blank hblank]
          exact .verbatim endpoint _ path text hstatic hfile hread hblank
    -- nothing to serve: the name is no safe one, or there is no file
    | nothing =>
      rw [Except.bind, contentResponse_empty]
      by_cases hsafe : isSafeEndpoint endpoint = true
      · have hstatic := h.isUndescribed hnamed hsafe fun path t ht => by
          cases hartifact.symm.trans ht
        refine .fileless endpoint _ hstatic ?_
        rw [Option.eq_none_iff_forall_ne_some]
        intro path hpath
        rw [h.resolveArtifact_eq hstatic, staticArtifact] at hartifact
        simp only [hpath, reduceCtorEq] at hartifact
      · exact .unsafeName endpoint hnamed (mt isSafeEndpoint_eq_true_iff.2 hsafe)

/-! ### Requests for data sources -/

/-- **What is answered is what comes of the request,** and nothing else is. -/
theorem Site.IsOf.answer_eq_iff (h : site.IsOf s)
    (hroute : Route.ofPath r.target.path = .dataSource) {response : Response} {p : Progress} :
    answer site { cache } r = (response, p) ↔ SourceOutcome s site cache r response p := by
  -- the answer is read off a course, of which there is one
  have hanswer : ∀ {c}, DataSourceCourse site cache r c →
      answer site { cache } r = (responseOf c.outcome, ⟨c.cache, c.calls⟩) := by
    intro c hc
    have htakes : ((Route.ofPath r.target.path).respond r).Takes site cache c := by
      rw [hroute]
      exact hc.takes
    have hallows : (Route.ofPath r.target.path).allows r.method = true := by
      rw [hroute]
      rfl
    rw [answer_of_takes hallows htakes, hroute]
    rfl
  constructor
  · intro heq
    obtain ⟨c, hc, -⟩ : ∃ c, DataSourceCourse site cache r c ∧ _ := dataSource_takes r
    rw [hanswer hc] at heq
    obtain ⟨rfl, rfl⟩ := Prod.mk.inj heq
    exact .of_course h hc
  · intro houtcome
    obtain ⟨c, hc, rfl, rfl⟩ := houtcome.exists_course h
    exact hanswer hc

/-- **A ready query is asked,** and nothing else. -/
theorem Site.IsOf.calls_of_isReady (h : site.IsOf s)
    (hroute : Route.ofPath r.target.path = .dataSource) {q : SourceQuery}
    (hready : q.IsReady s site cache r) : callsOf site cache r = [q.call r] := by
  have hcourse := h.run hready.toIsConnected (.asked q.command hready.prepared_eq)
  have houtcome := (h.answer_eq_iff hroute).2 (.of_course h hcourse)
  rw [callsOf, houtcome]
  rfl

/-- The statuses and codes of the errors that come before any question. The runner's own errors are
not among them. -/
def refusals : List (Nat × String) :=
  [(404, "not_found"), (400, "bad_connection"), (400, "descriptor_error"), (400, "bad_request"),
    (500, "io_error")]

/-- **The file that a request without a descriptor gets,** as it is: found under the static name,
readable as text, and not blank. -/
structure IsVerbatim (s : Settings) (files : FileTree) (r : Request) (text : String) : Prop where
  ofFile : ∃ endpoint tenant path, IsUndescribed s files r endpoint tenant ∧
    files.find? (staticName endpoint r.accepted.preferred tenant) = some path ∧
    files.readText path = .ok text
  not_blank : isAllBlank text = false

/-- What comes of a request: a question is asked with a ready query, or else there is an answer
without any. -/
theorem SourceOutcome.asked_or_silent {response : Response} {p : Progress}
    (h : SourceOutcome s site cache r response p) :
    (∃ q : SourceQuery, q.IsReady s site cache r ∧ p.calls = [q.call r]) ∨
      p.calls = [] ∧
        ((∃ text, IsVerbatim s site.files r text ∧ response = contentAnswer r text) ∨
          ∃ e : GatewayError, response = .ofError e ∧ (e.status, e.code) ∈ refusals) := by
  -- the five kinds of refusal before the runner is asked, as status and code
  have hmissing : (404, "not_found") ∈ refusals := by decide
  have hconnection : (400, "bad_connection") ∈ refusals := by decide
  have hdescriptor : (400, "descriptor_error") ∈ refusals := by decide
  have hrequest : (400, "bad_request") ∈ refusals := by decide
  have hfile : (500, "io_error") ∈ refusals := by decide
  -- only the last three outcomes come after a question
  cases h with
  | endpointless => exact .inr ⟨rfl, .inr ⟨_, rfl, hmissing⟩⟩
  | unsafeName => exact .inr ⟨rfl, .inr ⟨_, rfl, hmissing⟩⟩
  | fileless => exact .inr ⟨rfl, .inr ⟨_, rfl, hmissing⟩⟩
  | unreadable => exact .inr ⟨rfl, .inr ⟨_, rfl, hfile⟩⟩
  | blankFile => exact .inr ⟨rfl, .inr ⟨_, rfl, hmissing⟩⟩
  -- a file with content is the one answer without a question that is no refusal
  | verbatim endpoint tenant path text hstatic hfound hread hblank =>
    have hverbatim : IsVerbatim s site.files r text :=
      ⟨⟨endpoint, tenant, path, hstatic, hfound, hread⟩, hblank⟩
    exact .inr ⟨rfl, .inl ⟨text, hverbatim, rfl⟩⟩
  | unconnected => exact .inr ⟨rfl, .inr ⟨_, rfl, hconnection⟩⟩
  | unread => exact .inr ⟨rfl, .inr ⟨_, rfl, hfile⟩⟩
  | uncompiled => exact .inr ⟨rfl, .inr ⟨_, rfl, hdescriptor⟩⟩
  | unstated => exact .inr ⟨rfl, .inr ⟨_, rfl, hdescriptor⟩⟩
  | unsupplied => exact .inr ⟨rfl, .inr ⟨_, rfl, hrequest⟩⟩
  | failed q e hready => exact .inl ⟨q, hready, rfl⟩
  | blankResult q parts hready => exact .inl ⟨q, hready, rfl⟩
  | answered q parts hready => exact .inl ⟨q, hready, rfl⟩

theorem GatewayError.status_ne_ok (e : GatewayError) : e.status ≠ 200 := by
  cases e with
  | database e => cases e <;> simp [status]
  | _ => simp [status]

/-- **What is served has the type that was agreed on.** -/
theorem SourceOutcome.contentType_of_ok {response : Response} {p : Progress}
    (h : SourceOutcome s site cache r response p) (hok : response.status = 200) :
    response.contentType = some r.accepted.preferred.contentType := by
  -- an error is never served with this status
  have herror : ∀ e : GatewayError, (Response.ofError e).status ≠ 200 :=
    GatewayError.status_ne_ok
  cases h with
  | verbatim => rfl
  | answered => rfl
  | _ => exact absurd hok (herror _)

end

/-- **What comes of a request for a data source.** The outcomes are those listed, each under its
conditions and no others; the runner is asked once if a query is ready and not at all otherwise; and
without a question the client gets a file as it is, or one of the errors that come before. -/
theorem dataSource_outcome_iff {text : String} {s : Settings} (h : Settings.parse text = .ok s)
    (files : FileTree) (runner : Runner) (cache : DescriptorCache) {r : Request}
    (hroute : Route.ofPath r.target.path = .dataSource) :
    let site : Site := ⟨.ofSettings s, files, runner⟩
    (∀ response p, answer site { cache } r = (response, p) ↔
      SourceOutcome s site cache r response p) ∧
    (callsOf site cache r).length ≤ 1 ∧
    (callsOf site cache r ≠ [] ↔ ∃ q : SourceQuery, q.IsReady s site cache r) ∧
    (∀ q : SourceQuery, q.IsReady s site cache r → callsOf site cache r = [q.call r]) ∧
    (callsOf site cache r = [] →
      (∃ text, IsVerbatim s files r text ∧ (answer site { cache } r).1 = contentAnswer r text) ∨
      ∃ e : GatewayError, (answer site { cache } r).1 = .ofError e ∧
        (e.status, e.code) ∈ refusals) ∧
    ((answer site { cache } r).1.status = 200 →
      (answer site { cache } r).1.contentType = some r.accepted.preferred.contentType) := by
  intro site
  have hsite : site.IsOf s := Site.isOf_of_parse h files runner
  -- the answer has one outcome, and each clause is read off its cases
  have houtcome : SourceOutcome s site cache r _ _ := (hsite.answer_eq_iff hroute).1 rfl
  have hcases := houtcome.asked_or_silent
  change (∃ q, _ ∧ callsOf site cache r = _) ∨ callsOf site cache r = [] ∧ _ at hcases
  refine ⟨fun _ _ => hsite.answer_eq_iff hroute, ?_, ?_,
    fun q hready => hsite.calls_of_isReady hroute hready, ?_, houtcome.contentType_of_ok⟩
  · obtain ⟨q, -, hcalls⟩ | ⟨hcalls, -⟩ := hcases <;> rw [hcalls] <;> simp
  · -- asked iff ready: a query that is ready is the call
    constructor
    · intro hcalls
      obtain ⟨q, hready, -⟩ | ⟨hsilent, -⟩ := hcases
      · exact ⟨q, hready⟩
      · exact absurd hsilent hcalls
    · rintro ⟨q, hready⟩
      rw [hsite.calls_of_isReady hroute hready]
      exact List.cons_ne_nil _ _
  · intro hsilent
    obtain ⟨q, -, hcalls⟩ | ⟨-, hanswer⟩ := hcases
    · rw [hsilent] at hcalls
      cases hcalls
    · exact hanswer

/-! ### One data source under two contexts -/

/-- A descriptor of a data source. -/
def orderFiles : FileTree :=
  FileTree.empty.write ⟨[.name "orders.jsonds"], false, 13⟩ (Utf8.encode
    "<Command><CommandText>CALL orders()</CommandText></Command>")

/-- A request for orders under a context. -/
def orderRequest (context : String) : Request :=
  ⟨"GET", .parse ("/api/orders?ctx=" ++ context), []⟩

/-- Under the context with a connection string the query is ready and its texts are served as JSON.
Under the other none is ready, and the runner is not asked. -/
theorem dataSource_outcome_iff_orders :
    Settings.parse twoContexts = .ok twoContextSettings ∧
      let site : Site := ⟨.ofSettings twoContextSettings, orderFiles, logRunner⟩
      let cache : DescriptorCache := { isEnabled := true }
      (∃ q : SourceQuery, q.IsReady twoContextSettings site cache (orderRequest "dev")) ∧
      (answer site { cache } (orderRequest "dev")).1 = contentAnswer (orderRequest "dev") "[1]" ∧
      (∀ q : SourceQuery, ¬ q.IsReady twoContextSettings site cache (orderRequest "qa")) ∧
      ∃ e : GatewayError, (answer site { cache } (orderRequest "qa")).1 = .ofError e ∧
        (e.status, e.code) ∈ refusals := by
  have h : Settings.parse twoContexts = .ok twoContextSettings :=
    except_eq_ok_of_toOption (by decide +kernel)
  have hdev := dataSource_outcome_iff h orderFiles logRunner { isEnabled := true }
    (r := orderRequest "dev") (by decide +kernel)
  obtain ⟨-, -, hready, -⟩ := hdev
  obtain ⟨-, -, hunready, -, hsilent, -⟩ := dataSource_outcome_iff h orderFiles logRunner
    { isEnabled := true } (r := orderRequest "qa") (by decide +kernel)
  -- what is asked under the other context is computed; that nothing is ready there follows
  have hcalls : callsOf ⟨.ofSettings twoContextSettings, orderFiles, logRunner⟩
    { isEnabled := true } (orderRequest "qa") = [] := by decide +kernel
  refine ⟨h, hready.1 (by decide +kernel), by decide +kernel, fun q hq => ?_, ?_⟩
  · exact hunready.2 ⟨q, hq⟩ hcalls
  · refine (hsilent hcalls).resolve_left ?_
    rintro ⟨text, -, hanswer⟩
    have hstatus : (Response.status _) = 200 := congrArg Response.status hanswer
    exact absurd hstatus (by decide +kernel)

end QueryGateway
