import QueryGateway.Http.Routes
import QueryGateway.Proofs.Catalog.Courses

/-!
# Courses of requests

How answering a request goes. A route that needs a tenant gives up without one before anything is
asked (`requireTenant_takes`); with one it takes the course of its question to the catalog. A
request for a data source takes the course of the artifact that its endpoint resolves to
(`DataSourceCourse`). `RouteCourse` puts these together and `respond_takes` says that there is
nothing else. `callsOf` is the list of the questions of one request, and `callsOf_eq` takes it from
the course of the route.
-/

namespace QueryGateway.Http

open Serving

variable {site : Site} {cache : DescriptorCache} {r : Request}

/-- The tenant that a request is for: the one of its context, if that is configured. -/
def tenant? (site : Site) (r : Request) : Option Tenant :=
  r.context?.bind site.registry.find?

/-- **The questions of a request,** with the cache as it is found and nothing asked before. -/
def callsOf (site : Site) (cache : DescriptorCache) (r : Request) : List Call :=
  (answer site { cache } r).2.calls

/-! ### Routes for tenants -/

/-- Who needs a tenant gets it from the context, and without one the request is refused. -/
theorem requireTenant_takes (r : Request) :
    (requireTenant r).Takes site cache
      ⟨match tenant? site r with
        | some t => .ok t
        | none => .error (.tenantNotFound .noContext), cache, []⟩ := by
  -- the registry is read from the site, and nothing is asked or kept
  refine takes_site.bind_silent ?_
  unfold tenant?
  cases r.context?.bind site.registry.find? with
  | some t => exact takes_pure t
  | none => exact takes_fail _

/-- What comes after the tenant is not reached without one. -/
theorem takes_of_tenantless {x : Tenant → Serving Response} (h : tenant? site r = none) :
    (requireTenant r >>= x).Takes site cache
      ⟨.error (.tenantNotFound .noContext), cache, []⟩ := by
  have htenant : Takes _ site cache _ := requireTenant_takes r
  rw [h] at htenant
  exact htenant.bind_error

/-- What comes after the tenant is all there is to ask. -/
theorem takes_of_tenant {x : Tenant → Serving Response} {t : Tenant} {c : Course Response}
    (h : tenant? site r = some t) (hx : (x t).Takes site cache c) :
    (requireTenant r >>= x).Takes site cache c := by
  have htenant : Takes _ site cache _ := requireTenant_takes r
  rw [h] at htenant
  exact htenant.bind_silent hx

/-! ### Data sources -/

/-- **How a request for a data source goes:** without an endpoint it is refused, and otherwise it
goes as its artifact does. -/
inductive DataSourceCourse (site : Site) (cache : DescriptorCache) (r : Request) :
    Course Response → Prop where
  /-- The path names no endpoint. -/
  | endpointless (h : endpoint? r.target.path = none) :
    DataSourceCourse site cache r ⟨.error (.notFound r.target.path), cache, []⟩
  /-- The endpoint is resolved. -/
  | resolved (endpoint : String) (c : Course String)
      (hendpoint : endpoint? r.target.path = some endpoint)
      (h : ArtifactCourse site cache (.ofQueryPairs r.pairs)
        (resolveArtifact site.files (tenant? site r) endpoint r.accepted.preferred) c) :
    DataSourceCourse site cache r
      ⟨c.outcome.bind (contentResponse r.accepted.preferred · endpoint), c.cache, c.calls⟩

/-- **A request for a data source takes its course.** -/
theorem DataSourceCourse.takes {c : Course Response} (h : DataSourceCourse site cache r c) :
    (dataSource r).Takes site cache c := by
  unfold dataSource
  -- without an endpoint nothing is resolved
  cases h with
  | endpointless h =>
    rw [h]
    exact takes_fail _
  | resolved endpoint c hendpoint h =>
    rw [hendpoint]
    refine takes_site.bind_silent ?_
    exact h.takes.bind_lift (contentResponse r.accepted.preferred · endpoint)

/-- Every request for a data source takes one of its courses. -/
theorem dataSource_takes (r : Request) :
    ∃ c, DataSourceCourse site cache r c ∧ (dataSource r).Takes site cache c := by
  have hcourse : ∃ c, DataSourceCourse site cache r c := by
    -- an endpoint first, and then the course of what it resolves to
    cases hendpoint : endpoint? r.target.path with
    | none => exact ⟨_, .endpointless hendpoint⟩
    | some endpoint =>
      obtain ⟨c, hc, -⟩ : ∃ c, ArtifactCourse site cache (.ofQueryPairs r.pairs)
          (resolveArtifact site.files (tenant? site r) endpoint r.accepted.preferred) c ∧ _ :=
        Artifact.text_takes _ (.ofQueryPairs r.pairs)
      exact ⟨_, .resolved endpoint c hendpoint hc⟩
  obtain ⟨c, hc⟩ := hcourse
  exact ⟨c, hc, hc.takes⟩

/-! ### All routes -/

/-- **How a route goes.** Three routes answer by themselves, three need a tenant first, and one goes
by what its path names. -/
inductive RouteCourse (site : Site) (cache : DescriptorCache) (r : Request) :
    Route → Course Response → Prop where
  | health : RouteCourse site cache r .health ⟨.ok Http.health, cache, []⟩
  | readiness :
    RouteCourse site cache r .readiness ⟨.ok (Http.readiness site.files), cache, []⟩
  | version : RouteCourse site cache r .version ⟨.ok Http.version, cache, []⟩
  /-- A route that needs a tenant has none. -/
  | tenantless (route : Route) (h : tenant? site r = none)
      (hroute : route ∈ [Route.listDatabases, .searchObjects, .objectDetail]) :
    RouteCourse site cache r route ⟨.error (.tenantNotFound .noContext), cache, []⟩
  | listDatabases (t : Tenant) (c : Course (List DatabaseInfo)) (ht : tenant? site r = some t)
      (h : Catalog.ListingCourse site cache t c) :
    RouteCourse site cache r .listDatabases
      ⟨c.outcome.map fun rows =>
          .json 200 (.object [("databases", .array (rows.map databaseJson))]),
        c.cache, c.calls⟩
  | searchObjects (t : Tenant) (c : Course String) (ht : tenant? site r = some t)
      (h : Catalog.SearchCourse site cache t (.ofQueryPairs r.pairs) c) :
    RouteCourse site cache r .searchObjects
      ⟨c.outcome.bind (contentResponse .json · "dbobjects"), c.cache, c.calls⟩
  | objectDetail (t : Tenant) (c : Course String) (ht : tenant? site r = some t)
      (h : Catalog.DetailCourse site cache t (.ofQueryPairs r.pairs) c) :
    RouteCourse site cache r .objectDetail
      ⟨c.outcome.bind (contentResponse .json · "dbobject"), c.cache, c.calls⟩
  | dataSource (c : Course Response) (h : DataSourceCourse site cache r c) :
    RouteCourse site cache r .dataSource c

/-- **Every route takes a course of its own.** -/
theorem respond_takes (route : Route) (r : Request) :
    ∃ c, RouteCourse site cache r route c ∧ (route.respond r).Takes site cache c := by
  cases route with
  -- the first three answer from the site alone
  | health => exact ⟨_, .health, takes_pure _⟩
  | readiness => exact ⟨_, .readiness, takes_site.bind_silent (takes_pure _)⟩
  | version => exact ⟨_, .version, takes_pure _⟩
  | listDatabases =>
    -- the three routes of the catalog go alike: no tenant, or the course of the question
    cases ht : tenant? site r with
    | none => exact ⟨_, .tenantless _ ht (by simp), takes_of_tenantless ht⟩
    | some t =>
      obtain ⟨c, hc, htakes⟩ : ∃ c, Catalog.ListingCourse site cache t c ∧ _ :=
        Catalog.listDatabases_takes t
      refine ⟨_, .listDatabases t c ht hc, takes_of_tenant ht ?_⟩
      exact htakes.bind_pure _
  | searchObjects =>
    cases ht : tenant? site r with
    | none => exact ⟨_, .tenantless _ ht (by simp), takes_of_tenantless ht⟩
    | some t =>
      obtain ⟨c, hc, htakes⟩ : ∃ c, Catalog.SearchCourse site cache t _ c ∧ _ :=
        Catalog.searchObjects_takes t (.ofQueryPairs r.pairs)
      refine ⟨_, .searchObjects t c ht hc, takes_of_tenant ht ?_⟩
      exact htakes.bind_lift (contentResponse .json · "dbobjects")
  | objectDetail =>
    cases ht : tenant? site r with
    | none => exact ⟨_, .tenantless _ ht (by simp), takes_of_tenantless ht⟩
    | some t =>
      obtain ⟨c, hc, htakes⟩ : ∃ c, Catalog.DetailCourse site cache t _ c ∧ _ :=
        Catalog.objectDetail_takes t (.ofQueryPairs r.pairs)
      refine ⟨_, .objectDetail t c ht hc, takes_of_tenant ht ?_⟩
      exact htakes.bind_lift (contentResponse .json · "dbobject")
  | dataSource =>
    obtain ⟨c, hc, htakes⟩ : ∃ c, DataSourceCourse site cache r c ∧ _ := dataSource_takes r
    exact ⟨c, .dataSource c hc, htakes⟩

/-! ### Answers and the questions of a request -/

/-- The response to a request, from what came of it. Errors are responses as well, so every request
is answered. -/
def responseOf : Except GatewayError Response → Response
  | .ok response => response
  | .error e => .ofError e

theorem answer_of_not_allows (h : (Route.ofPath r.target.path).allows r.method = false)
    (p : Progress) : answer site p r = (methodNotAllowed, p) := by
  simp only [answer, h]
  rfl

/-- **A request is answered by the course of its route,** and an error is answered as well. -/
theorem answer_of_takes {c : Course Response}
    (h : (Route.ofPath r.target.path).allows r.method = true)
    (hc : ((Route.ofPath r.target.path).respond r).Takes site cache c) (before : List Call) :
    answer site ⟨cache, before⟩ r =
      ((Route.ofPath r.target.path).deliver r.method (responseOf c.outcome),
        ⟨c.cache, before ++ c.calls⟩) := by
  -- the method is one that the route allows
  simp only [answer, h, if_true]
  rw [hc before]
  obtain ⟨outcome, after, calls⟩ := c
  cases outcome with
  | ok response => rfl
  | error e => rfl

/-- Without the method nothing is asked. -/
theorem callsOf_of_not_allows (h : (Route.ofPath r.target.path).allows r.method = false) :
    callsOf site cache r = [] := by
  rw [callsOf, answer_of_not_allows h]

/-- **The questions of a request are those of its route.** -/
theorem callsOf_eq {c : Course Response} (h : (Route.ofPath r.target.path).allows r.method = true)
    (hc : ((Route.ofPath r.target.path).respond r).Takes site cache c) :
    callsOf site cache r = c.calls := by
  rw [callsOf, answer_of_takes h hc]
  exact List.nil_append c.calls

/-- A request asks nothing or takes a course of its route. -/
theorem callsOf_cases (site : Site) (cache : DescriptorCache) (r : Request) :
    callsOf site cache r = [] ∨
      -- a method that is not allowed is answered without the route
      ∃ c, RouteCourse site cache r (Route.ofPath r.target.path) c ∧
        callsOf site cache r = c.calls := by
  cases h : (Route.ofPath r.target.path).allows r.method with
  | false => exact Or.inl (callsOf_of_not_allows h)
  | true =>
    obtain ⟨c, hc, htakes⟩ : ∃ c, RouteCourse site cache r (Route.ofPath r.target.path) c ∧ _ :=
      respond_takes (Route.ofPath r.target.path) r
    exact Or.inr ⟨c, hc, callsOf_eq h htakes⟩

end QueryGateway.Http
