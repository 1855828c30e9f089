import QueryGateway.Proofs.Http.Courses

/-!
# Sources of calls

A call is listed with the source of its command: a file and the values that were bound. The listing
is honest. Whatever a request asks, the command of every call is the one that its source gives
(`callsOf_isPrepared`), from the cache that the request found or from that cache after some more
descriptors were loaded (`DescriptorCache.Grows`).
-/

namespace QueryGateway

variable {site : Site} {cache : DescriptorCache}

/-! ### Where commands come from -/

/-- **Caches that come about** by loading more descriptors. A request may load several, so a command
may be prepared from a cache that has grown since the request began. -/
inductive DescriptorCache.Grows (files : FileTree) : DescriptorCache → DescriptorCache → Prop where
  | refl (c : DescriptorCache) : Grows files c c
  | load {c d : DescriptorCache} (h : Grows files c d) (path : FilePath) :
    Grows files c (d.load files path).2

/-- **The command of a call** is the one that its source gives, with the cache at the time of the
call. -/
def Call.IsPrepared (c : Call) (files : FileTree) (cache : DescriptorCache) : Prop :=
  ∃ d, cache.Grows files d ∧ prepared files d c.source = .ok c.command

theorem RunCourse.isPrepared {target : ConnectionTarget} {source : CommandSource}
    {c : Course String} (h : RunCourse site cache target source c) {call : Call}
    (hcall : call ∈ c.calls) : prepared site.files cache call.source = .ok call.command := by
  obtain ⟨hprepared, hrun, -⟩ := h.of_mem hcall
  rw [hrun]
  exact hprepared

namespace Catalog

variable {t : Tenant}

/-- A listing leaves the cache it found, or that cache with its descriptor loaded. -/
theorem ListingCourse.grows {c : Course (List DatabaseInfo)} (h : ListingCourse site cache t c) :
    cache.Grows site.files c.cache := by
  cases h with
  | absent h => exact .refl cache
  | unprepared s path e hs hpath h => exact (DescriptorCache.Grows.refl cache).load path
  | asked s path command hs hpath h => exact (DescriptorCache.Grows.refl cache).load path

theorem ListingCourse.isPrepared {c : Course (List DatabaseInfo)} (h : ListingCourse site cache t c)
    {call : Call} (hcall : call ∈ c.calls) : call.IsPrepared site.files cache := by
  obtain ⟨s, path, -, -, hprepared, hlisting⟩ := h.of_mem hcall
  refine ⟨cache, .refl cache, ?_⟩
  rw [hlisting]
  exact hprepared

theorem ChosenCourse.isPrepared
    {choose : List DatabaseInfo → Option (ConnectionTarget × ParameterValues)}
    {refusal : GatewayError} {name : String} {c : Course String}
    (h : ChosenCourse site cache t choose refusal name c) {call : Call} (hcall : call ∈ c.calls) :
    call.IsPrepared site.files cache := by
  -- only the last case asks more than its listing does, and from a cache that has grown
  cases h with
  | unlisted listing e hl h => exact hl.isPrepared hcall
  | refused listing rows hl hrows h => exact hl.isPrepared hcall
  | fileless listing rows target values hl hrows hchoice h => exact hl.isPrepared hcall
  | run listing rows target values path c hl hrows hchoice hpath h =>
    rcases List.mem_append.1 hcall with hcall | hcall
    · exact hl.isPrepared hcall
    · exact ⟨listing.cache, hl.grows, h.isPrepared hcall⟩

theorem SearchCourse.isPrepared {values : ParameterValues} {c : Course String}
    (h : SearchCourse site cache t values c) {call : Call} (hcall : call ∈ c.calls) :
    call.IsPrepared site.files cache := by
  cases h with
  | unconnected e h => exact absurd hcall List.not_mem_nil
  | unnamed s hs h => exact absurd hcall List.not_mem_nil
  | chosen s c hs hnamed h => exact h.isPrepared hcall

theorem DetailCourse.isPrepared {values : ParameterValues} {c : Course String}
    (h : DetailCourse site cache t values c) {call : Call} (hcall : call ∈ c.calls) :
    call.IsPrepared site.files cache := by
  cases h with
  | unconnected e h => exact absurd hcall List.not_mem_nil
  | chosen s c hs h => exact h.isPrepared hcall

end Catalog

namespace Http

variable {r : Request}

theorem DataSourceCourse.isPrepared {c : Course Response} (h : DataSourceCourse site cache r c)
    {call : Call} (hcall : call ∈ c.calls) : call.IsPrepared site.files cache := by
  cases h with
  | endpointless h => exact absurd hcall List.not_mem_nil
  | resolved endpoint c hendpoint h =>
    obtain ⟨path, t, s, -, -, hrun⟩ := h.of_mem hcall
    exact ⟨cache, .refl cache, hrun.isPrepared hcall⟩

/-- Every call of a route runs a command that was prepared from its source: the routes that ask
nothing have no calls, and for the others this is known of their courses. -/
theorem RouteCourse.isPrepared {route : Route} {c : Course Response}
    (h : RouteCourse site cache r route c) {call : Call} (hcall : call ∈ c.calls) :
    call.IsPrepared site.files cache := by
  cases h with
  | health => exact absurd hcall List.not_mem_nil
  | readiness => exact absurd hcall List.not_mem_nil
  | version => exact absurd hcall List.not_mem_nil
  | tenantless route h hroute => exact absurd hcall List.not_mem_nil
  | listDatabases t c ht h => exact h.isPrepared hcall
  | searchObjects t c ht h => exact h.isPrepared hcall
  | objectDetail t c ht h => exact h.isPrepared hcall
  | dataSource c h => exact h.isPrepared hcall

/-- **Every call of a request is prepared from its source.** -/
theorem callsOf_isPrepared {call : Call} (hcall : call ∈ callsOf site cache r) :
    call.IsPrepared site.files cache := by
  rcases callsOf_cases site cache r with hnone | ⟨c, hc, hcalls⟩
  · rw [hnone] at hcall
    exact absurd hcall List.not_mem_nil
  · rw [hcalls] at hcall
    exact hc.isPrepared hcall

end Http

end QueryGateway
