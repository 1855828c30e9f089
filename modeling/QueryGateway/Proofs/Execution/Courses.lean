import QueryGateway.Execution.Command

/-!
# Courses

What serving does to progress. An action of `Serving` may read the cache, but it never looks at the
questions asked before it and never takes one back: it adds its own at the end. `Takes` says so of
an action and a `Course`, which is an outcome, the cache that is left, and the questions added.

Courses compose. `Takes.bind` follows an action that answers by the course of what comes next, and
`Takes.bind_error` ends with the error of one that does not. Of the actions that are built from
others, those below take one of a few courses each:

* `prepare_takes`: preparing a command asks nothing, and its outcome is `prepared`.
* `RunCourse` and `runText_takes`: a command that is prepared is asked for once, with its own
  source, and one that is not is never asked for.
* `ArtifactCourse` and `Artifact.text_takes`: of what may answer a request, only a templated query
  leads to a question, and only for a tenant with a connection string.

Each of these is a list of courses that says of every one of them that it is taken
(`RunCourse.takes`, `ArtifactCourse.takes`), and that one is. A course of an action is unique
(`Takes.unique`), so to know one is to know what the action does.
-/

namespace QueryGateway

/-- **A course of serving:** how it ends, and what it leaves and adds. It is all that can be told of
an action from outside. -/
structure Course (α : Type) where
  /-- The answer or the error. -/
  outcome : Except GatewayError α
  /-- The cache that is left. -/
  cache : DescriptorCache
  /-- The questions that are added. -/
  calls : List Call

namespace Serving

variable {α β : Type} {site : Site} {cache : DescriptorCache}

/-- **An action takes a course** from a cache, whatever was asked before. That the calls so far do
not matter lets courses be put one behind the other. -/
def Takes (x : Serving α) (site : Site) (cache : DescriptorCache) (c : Course α) : Prop :=
  ∀ before, x site ⟨cache, before⟩ = (c.outcome, ⟨c.cache, before ++ c.calls⟩)

/-- From one cache there is one course. -/
theorem Takes.unique {x : Serving α} {c d : Course α} (hc : x.Takes site cache c)
    (hd : x.Takes site cache d) : c = d := by
  -- from no calls at all, both are what the action comes to
  have h := (hc []).symm.trans (hd [])
  obtain ⟨houtcome, hprogress⟩ := Prod.mk.inj h
  obtain ⟨hcache, hcalls⟩ := Progress.mk.inj hprogress
  cases c with
  | mk outcome after calls =>
    cases d with
    | mk outcome' after' calls' =>
      simp only [List.nil_append] at houtcome hcache hcalls
      rw [houtcome, hcache, hcalls]

/-! ### Steps -/

theorem takes_pure (a : α) :
    Takes (Pure.pure a : Serving α) site cache ⟨.ok a, cache, []⟩ := by
  intro before
  rw [List.append_nil]
  rfl

theorem takes_lift (r : Except GatewayError α) :
    (lift r).Takes site cache ⟨r, cache, []⟩ := by
  intro before
  rw [List.append_nil]
  rfl

theorem takes_fail (e : GatewayError) :
    (fail e : Serving α).Takes site cache ⟨.error e, cache, []⟩ :=
  takes_lift (.error e)

theorem takes_site : Serving.site.Takes site cache ⟨.ok site, cache, []⟩ := by
  intro before
  rw [List.append_nil]
  rfl

theorem takes_loadDescriptor (path : FilePath) :
    (loadDescriptor path).Takes site cache
      ⟨(cache.load site.files path).1.map (·.descriptor), (cache.load site.files path).2, []⟩ := by
  intro before
  rw [List.append_nil]
  rfl

theorem takes_fetchFirstColumn (target : ConnectionTarget) (command : PreparedCommand)
    (source : CommandSource) :
    (fetchFirstColumn target command source).Takes site cache
      ⟨site.runner.firstColumn target command, cache,
        [⟨.firstColumn, target, command, source⟩]⟩ :=
  fun _ => rfl

theorem takes_fetchDatabases (target : ConnectionTarget) (command : PreparedCommand)
    (source : CommandSource) :
    (fetchDatabases target command source).Takes site cache
      ⟨site.runner.databases target command, cache, [⟨.databases, target, command, source⟩]⟩ :=
  fun _ => rfl

/-! ### Chains -/

/-- **Going on:** the calls of what comes next come after those made so far. -/
theorem Takes.bind {x : Serving α} {f : α → Serving β} {a : α} {after : DescriptorCache}
    {calls : List Call} {c : Course β} (hx : x.Takes site cache ⟨.ok a, after, calls⟩)
    (hf : (f a).Takes site after c) :
    (x >>= f).Takes site cache ⟨c.outcome, c.cache, calls ++ c.calls⟩ := by
  intro before
  change Serving.bind x f site ⟨cache, before⟩ = _
  rw [Serving.bind, hx before]
  change f a site ⟨after, before ++ calls⟩ = _
  rw [hf (before ++ calls), List.append_assoc]

/-- Going on after an action that asks nothing. -/
theorem Takes.bind_silent {x : Serving α} {f : α → Serving β} {a : α} {after : DescriptorCache}
    {c : Course β} (hx : x.Takes site cache ⟨.ok a, after, []⟩) (hf : (f a).Takes site after c) :
    (x >>= f).Takes site cache c :=
  Takes.bind hx hf

/-- **Giving up:** what comes next is not reached. -/
theorem Takes.bind_error {x : Serving α} {f : α → Serving β} {e : GatewayError}
    {after : DescriptorCache} {calls : List Call}
    (hx : x.Takes site cache ⟨.error e, after, calls⟩) :
    (x >>= f).Takes site cache ⟨.error e, after, calls⟩ := by
  intro before
  change Serving.bind x f site ⟨cache, before⟩ = _
  rw [Serving.bind, hx before]

/-- Going on with an action that asks nothing. -/
theorem Takes.bind_quiet {x : Serving α} {f : α → Serving β} {a : α} {r : Except GatewayError β}
    {after last : DescriptorCache} {calls : List Call}
    (hx : x.Takes site cache ⟨.ok a, after, calls⟩) (hf : (f a).Takes site after ⟨r, last, []⟩) :
    (x >>= f).Takes site cache ⟨r, last, calls⟩ := by
  have h := Takes.bind hx hf
  rw [List.append_nil] at h
  exact h

/-- An action whose answer is worked on without asking anything more. -/
theorem Takes.bind_lift {x : Serving α} (f : α → Except GatewayError β) {c : Course α}
    (hx : x.Takes site cache c) :
    (x >>= fun a => lift (f a)).Takes site cache ⟨c.outcome.bind f, c.cache, c.calls⟩ := by
  obtain ⟨outcome, after, calls⟩ := c
  cases outcome with
  | error e => exact hx.bind_error
  | ok a => exact hx.bind_quiet (takes_lift (f a))

/-- An action whose answer is worked on without fail. -/
theorem Takes.bind_pure {x : Serving α} (f : α → β) {c : Course α} (hx : x.Takes site cache c) :
    (x >>= fun a => Pure.pure (f a)).Takes site cache ⟨c.outcome.map f, c.cache, c.calls⟩ := by
  obtain ⟨outcome, after, calls⟩ := c
  cases outcome with
  | error e => exact hx.bind_error
  | ok a => exact hx.bind_quiet (takes_pure (f a))

end Serving

open Serving

variable {site : Site} {cache : DescriptorCache}

/-! ### Preparing commands -/

/-- **The command that is prepared** from a source, with the cache as it is. The two errors it can
end with come from loading the descriptor and from making the statement. -/
def prepared (files : FileTree) (cache : DescriptorCache) (source : CommandSource) :
    Except GatewayError PreparedCommand := do
  let shared ← (cache.load files source.descriptor).1
  let statement ← (shared.descriptor.bind source.values).statement
  return ⟨statement, shared.descriptor.timeoutSeconds⟩

/-- **Preparing a command asks nothing.** -/
theorem prepare_takes (source : CommandSource) :
    (prepare source.descriptor source.values).Takes site cache
      ⟨prepared site.files cache source, (cache.load site.files source.descriptor).2, []⟩ := by
  have hload : (loadDescriptor source.descriptor).Takes site cache _ := takes_loadDescriptor _
  unfold prepare prepared
  generalize (cache.load site.files source.descriptor).2 = after at *
  -- the descriptor is found in the cache or compiled, and without it there is no command
  cases hr : (cache.load site.files source.descriptor).1 with
  | error e =>
    rw [hr] at hload
    exact hload.bind_error
  | ok shared =>
    rw [hr] at hload
    refine hload.bind_silent ?_
    -- the statement is all that is still missing
    have hstatement : (lift (shared.descriptor.bind source.values).statement).Takes site after _ :=
      takes_lift _
    exact hstatement.bind_pure (PreparedCommand.mk · shared.descriptor.timeoutSeconds)

/-! ### Running commands -/

/-- **How running a command goes.** Either there is no command, and nothing is asked, or the runner
is asked once and its answer is the outcome. -/
inductive RunCourse (site : Site) (cache : DescriptorCache) (target : ConnectionTarget)
    (source : CommandSource) : Course String → Prop where
  /-- There is no command to run. -/
  | unprepared (e : GatewayError) (h : prepared site.files cache source = .error e) :
    RunCourse site cache target source
      ⟨.error e, (cache.load site.files source.descriptor).2, []⟩
  /-- The runner is asked once. -/
  | asked (command : PreparedCommand) (h : prepared site.files cache source = .ok command) :
    RunCourse site cache target source
      ⟨(site.runner.firstColumn target command).map String.join,
        (cache.load site.files source.descriptor).2,
        [⟨.firstColumn, target, command, source⟩]⟩

/-- **Running a command takes its course.** -/
theorem RunCourse.takes {target : ConnectionTarget} {source : CommandSource} {c : Course String}
    (h : RunCourse site cache target source c) :
    (runText target source.descriptor source.values).Takes site cache c := by
  have hprepare : Takes _ site cache _ := prepare_takes source
  -- the command decides; once it is there, running it cannot be refused
  cases h with
  | unprepared e h =>
    rw [h] at hprepare
    exact hprepare.bind_error
  | asked command h =>
    rw [h] at hprepare
    refine hprepare.bind_silent ?_
    exact (takes_fetchFirstColumn target command source).bind_pure String.join

theorem runText_takes (target : ConnectionTarget) (source : CommandSource) :
    ∃ c, RunCourse site cache target source c ∧
      (runText target source.descriptor source.values).Takes site cache c := by
  have hcourse : ∃ c, RunCourse site cache target source c := by
    cases hp : prepared site.files cache source with
    | error e => exact ⟨_, .unprepared e hp⟩
    | ok command => exact ⟨_, .asked command hp⟩
  obtain ⟨c, hc⟩ := hcourse
  exact ⟨c, hc, hc.takes⟩

/-- **What running a command asks:** one question, with the command that its source gives. -/
theorem RunCourse.of_mem {target : ConnectionTarget} {source : CommandSource} {c : Course String}
    (h : RunCourse site cache target source c) {call : Call} (hcall : call ∈ c.calls) :
    prepared site.files cache source = .ok call.command ∧
      call = ⟨.firstColumn, target, call.command, source⟩ ∧ c.calls = [call] := by
  cases h with
  | unprepared e h => exact absurd hcall List.not_mem_nil
  | asked command h =>
    obtain rfl := List.mem_singleton.1 hcall
    exact ⟨h, rfl, rfl⟩

/-! ### Artifacts -/

theorem connectionTarget_takes (t : Tenant) :
    (connectionTarget t).Takes site cache
      ⟨(site.registry.connectionString t).map (⟨·, none⟩), cache, []⟩ := by
  refine takes_site.bind_silent ?_
  exact (takes_lift (site.registry.connectionString t)).bind_pure (ConnectionTarget.mk · none)

/-- **How getting the text of an artifact goes,** by the kind of the artifact. Only a descriptor
that can be run asks anything. -/
inductive ArtifactCourse (site : Site) (cache : DescriptorCache) (values : ParameterValues) :
    Artifact → Course String → Prop where
  /-- The tenant of a templated query has no connection string. -/
  | unconnected (path : FilePath) (t : Tenant) (e : GatewayError)
      (h : site.registry.connectionString t = .error e) :
    ArtifactCourse site cache values (.templated path t) ⟨.error e, cache, []⟩
  /-- A templated query runs. -/
  | run (path : FilePath) (t : Tenant) (s : String) (c : Course String)
      (hs : site.registry.connectionString t = .ok s)
      (h : RunCourse site cache ⟨s, none⟩ ⟨path, values⟩ c) :
    ArtifactCourse site cache values (.templated path t) c
  | static (path : FilePath) :
    ArtifactCourse site cache values (.static path)
      ⟨(site.files.readText path).mapError .file, cache, []⟩
  | nothing : ArtifactCourse site cache values .nothing ⟨.ok "", cache, []⟩

/-- **Only a templated query asks,** and it asks what running its command does. -/
theorem ArtifactCourse.of_mem {values : ParameterValues} {a : Artifact} {c : Course String}
    (h : ArtifactCourse site cache values a c) {call : Call} (hcall : call ∈ c.calls) :
    ∃ path t s, a = .templated path t ∧ site.registry.connectionString t = .ok s ∧
      RunCourse site cache ⟨s, none⟩ ⟨path, values⟩ c := by
  cases h with
  | unconnected path t e h => exact absurd hcall List.not_mem_nil
  | run path t s c hs h => exact ⟨path, t, s, rfl, hs, h⟩
  | static path => exact absurd hcall List.not_mem_nil
  | nothing => exact absurd hcall List.not_mem_nil

/-- **Getting the text of an artifact takes its course.** -/
theorem ArtifactCourse.takes {values : ParameterValues} {a : Artifact} {c : Course String}
    (h : ArtifactCourse site cache values a c) : (a.text values).Takes site cache c := by
  -- a templated artifact needs a connection first, and the other two need none
  cases h with
  | unconnected path t e h =>
    have htarget : Takes _ site cache _ := connectionTarget_takes t
    rw [h] at htarget
    exact htarget.bind_error
  | run path t s c hs h =>
    have htarget : Takes _ site cache _ := connectionTarget_takes t
    rw [hs] at htarget
    exact htarget.bind_silent h.takes
  | static path => exact takes_site.bind_silent (takes_lift _)
  | nothing => exact takes_pure ""

/-- Every artifact takes one of the courses: by its kind, and for a descriptor by whether there is a
connection. -/
theorem Artifact.text_takes (a : Artifact) (values : ParameterValues) :
    ∃ c, ArtifactCourse site cache values a c ∧ (a.text values).Takes site cache c := by
  have hcourse : ∃ c, ArtifactCourse site cache values a c := by
    cases a with
    | templated path t =>
      -- the connection is looked up before the descriptor is loaded
      cases hs : site.registry.connectionString t with
      | error e => exact ⟨_, .unconnected path t e hs⟩
      | ok s =>
        obtain ⟨c, hc, -⟩ : ∃ c, RunCourse site cache ⟨s, none⟩ ⟨path, values⟩ c ∧ _ :=
          runText_takes ⟨s, none⟩ ⟨path, values⟩
        exact ⟨c, .run path t s c hs hc⟩
    | static path => exact ⟨_, .static path⟩
    | nothing => exact ⟨_, .nothing⟩
  obtain ⟨c, hc⟩ := hcourse
  exact ⟨c, hc, hc.takes⟩

end QueryGateway
