import QueryGateway.Catalog
import QueryGateway.Proofs.Execution.Courses

/-!
# Courses of the catalog

How the three questions of the catalog go. The listing (`ListingCourse`) is asked for at most once,
with values that only the tenant has a say in. The search and the detail have one form: from the
rows of the listing a target and values are chosen, and the descriptor of the question runs with
these (`runChosen`); without a choice the request is refused. `searchObjects_eq` and
`objectDetail_eq` bring them into this form, with `searchChoice` and `detailChoice`.

`ChosenCourse` lists all that can happen then. The question itself is asked in one case only, right
after a listing that answered, and then with what was chosen from its rows.
-/

namespace QueryGateway.Catalog

open Serving Text

variable {site : Site} {cache : DescriptorCache} {t : Tenant}

/-! ### The listing -/

/-- The values that the listing is asked for with: the aliases of the tenant as one text, and
nothing of the request. -/
def listingValues (t : Tenant) : ParameterValues :=
  ParameterValues.empty.insert "dbmappings" (.text t.aliasMappings)

/-- **How the listing goes.** The cases follow the program: what is missing before the runner can be
asked, and then the one question, with whatever comes of it. -/
inductive ListingCourse (site : Site) (cache : DescriptorCache) (t : Tenant) :
    Course (List DatabaseInfo) → Prop where
  /-- There are no databases without a connection string or without a descriptor. -/
  | absent (h : (site.registry.connectionString t).toOption = none ∨
      site.files.find? databasesDescriptor = none) :
    ListingCourse site cache t ⟨.ok [], cache, []⟩
  /-- There is no command to ask with. -/
  | unprepared (s : String) (path : FilePath) (e : GatewayError)
      (hs : site.registry.connectionString t = .ok s)
      (hpath : site.files.find? databasesDescriptor = some path)
      (h : prepared site.files cache ⟨path, listingValues t⟩ = .error e) :
    ListingCourse site cache t ⟨.error e, (cache.load site.files path).2, []⟩
  /-- The runner is asked. -/
  | asked (s : String) (path : FilePath) (command : PreparedCommand)
      (hs : site.registry.connectionString t = .ok s)
      (hpath : site.files.find? databasesDescriptor = some path)
      (h : prepared site.files cache ⟨path, listingValues t⟩ = .ok command) :
    ListingCourse site cache t
      ⟨site.runner.databases ⟨s, none⟩ command, (cache.load site.files path).2,
        [⟨.databases, ⟨s, none⟩, command, ⟨path, listingValues t⟩⟩]⟩

/-- **What a listing asks:** one question, whose answer is the outcome. -/
theorem ListingCourse.of_mem {c : Course (List DatabaseInfo)} (h : ListingCourse site cache t c)
    {call : Call} (hcall : call ∈ c.calls) :
    ∃ s path, site.registry.connectionString t = .ok s ∧
      site.files.find? databasesDescriptor = some path ∧
      prepared site.files cache ⟨path, listingValues t⟩ = .ok call.command ∧
      call = ⟨.databases, ⟨s, none⟩, call.command, ⟨path, listingValues t⟩⟩ := by
  -- one constructor for each way a listing can end, and only the last one asks
  cases h with
  | absent h => exact absurd hcall List.not_mem_nil
  | unprepared s path e hs hpath h => exact absurd hcall List.not_mem_nil
  | asked s path command hs hpath h =>
    obtain rfl := List.mem_singleton.1 hcall
    exact ⟨s, path, hs, hpath, h, rfl⟩

/-- **The listing takes its course.** -/
theorem ListingCourse.takes {c : Course (List DatabaseInfo)} (h : ListingCourse site cache t c) :
    (listDatabases t).Takes site cache c := by
  -- the site is read first, which leaves the cache and asks nothing
  refine takes_site.bind_silent ?_
  cases h with
  | absent h =>
    -- one of the two things is missing, and either way the listing is empty
    cases hs : site.registry.connectionString t with
    | error e => exact takes_pure []
    | ok s =>
      rw [hs] at h
      rw [h.resolve_left (by rintro ⟨⟩)]
      exact takes_pure []
  -- the command does not come out of its descriptor, and the error is the outcome
  | unprepared s path e hs hpath h =>
    have hprepare : Takes _ site cache _ := prepare_takes ⟨path, listingValues t⟩
    rw [h] at hprepare
    rw [hs, hpath]
    exact hprepare.bind_error
  | asked s path command hs hpath h =>
    have hprepare : Takes _ site cache _ := prepare_takes ⟨path, listingValues t⟩
    rw [h] at hprepare
    rw [hs, hpath]
    exact hprepare.bind_silent (takes_fetchDatabases _ command _)

/-- Every listing takes one of the courses: the cases are those of the program, in its order. -/
theorem listDatabases_takes (t : Tenant) :
    ∃ c, ListingCourse site cache t c ∧ (listDatabases t).Takes site cache c := by
  -- a connection first, then a descriptor, then a command from it
  have hcourse : ∃ c, ListingCourse site cache t c := by
    cases hs : site.registry.connectionString t with
    | error e => exact ⟨_, .absent (Or.inl (by rw [hs]; rfl))⟩
    | ok s =>
      cases hpath : site.files.find? databasesDescriptor with
      | none => exact ⟨_, .absent (Or.inr hpath)⟩
      | some path =>
        cases hp : prepared site.files cache ⟨path, listingValues t⟩ with
        | error e => exact ⟨_, .unprepared s path e hs hpath hp⟩
        | ok command => exact ⟨_, .asked s path command hs hpath hp⟩
  obtain ⟨c, hc⟩ := hcourse
  exact ⟨c, hc, hc.takes⟩

/-! ### Questions that the rows of the listing decide -/

/-- The question, with the target and the values that were chosen for it. -/
def runChoice (refusal : GatewayError) (name : String) :
    Option (ConnectionTarget × ParameterValues) → Serving String
  | some (target, values) => runNamed target name values
  | none => Serving.fail refusal

/-- **A question with what is chosen** from the rows of the listing. The search and the detail are
both of this form, and differ in how they choose and in what they refuse with. -/
def runChosen (t : Tenant)
    (choose : List DatabaseInfo → Option (ConnectionTarget × ParameterValues))
    (refusal : GatewayError) (name : String) : Serving String := do
  let databases ← listDatabases t
  runChoice refusal name (choose databases)

/-- **How a question with a choice goes.** Each case says how the listing went and what was chosen
from it, so the calls of the listing come first in all of them. -/
inductive ChosenCourse (site : Site) (cache : DescriptorCache) (t : Tenant)
    (choose : List DatabaseInfo → Option (ConnectionTarget × ParameterValues))
    (refusal : GatewayError) (name : String) : Course String → Prop where
  /-- The listing does not answer. -/
  | unlisted (listing : Course (List DatabaseInfo)) (e : GatewayError)
      (hl : ListingCourse site cache t listing) (h : listing.outcome = .error e) :
    ChosenCourse site cache t choose refusal name ⟨.error e, listing.cache, listing.calls⟩
  /-- Nothing is chosen. -/
  | refused (listing : Course (List DatabaseInfo)) (rows : List DatabaseInfo)
      (hl : ListingCourse site cache t listing) (hrows : listing.outcome = .ok rows)
      (h : choose rows = none) :
    ChosenCourse site cache t choose refusal name
      ⟨.error refusal, listing.cache, listing.calls⟩
  /-- The question has no descriptor. -/
  | fileless (listing : Course (List DatabaseInfo)) (rows : List DatabaseInfo)
      (target : ConnectionTarget) (values : ParameterValues)
      (hl : ListingCourse site cache t listing) (hrows : listing.outcome = .ok rows)
      (hchoice : choose rows = some (target, values)) (h : site.files.find? name = none) :
    ChosenCourse site cache t choose refusal name ⟨.ok "", listing.cache, listing.calls⟩
  /-- The descriptor of the question runs. -/
  | run (listing : Course (List DatabaseInfo)) (rows : List DatabaseInfo)
      (target : ConnectionTarget) (values : ParameterValues) (path : FilePath)
      (c : Course String)
      (hl : ListingCourse site cache t listing) (hrows : listing.outcome = .ok rows)
      (hchoice : choose rows = some (target, values)) (hpath : site.files.find? name = some path)
      (h : RunCourse site listing.cache target ⟨path, values⟩ c) :
    ChosenCourse site cache t choose refusal name ⟨c.outcome, c.cache, listing.calls ++ c.calls⟩

/-- **A question with a choice takes its course.** -/
theorem ChosenCourse.takes
    {choose : List DatabaseInfo → Option (ConnectionTarget × ParameterValues)}
    {refusal : GatewayError} {name : String} {c : Course String}
    (h : ChosenCourse site cache t choose refusal name c) :
    (runChosen t choose refusal name).Takes site cache c := by
  cases h with
  -- the listing comes first in each case; its course is taken apart so that its outcome can be
  -- named
  | unlisted listing e hl h =>
    obtain ⟨outcome, after, calls⟩ := listing
    cases h
    exact hl.takes.bind_error
  -- rows came, and nothing among them is meant
  | refused listing rows hl hrows h =>
    obtain ⟨outcome, after, calls⟩ := listing
    cases hrows
    refine hl.takes.bind_quiet ?_
    rw [h]
    exact takes_fail refusal
  -- something is chosen, and there is no descriptor to run it with: the answer is empty
  | fileless listing rows target values hl hrows hchoice h =>
    obtain ⟨outcome, after, calls⟩ := listing
    cases hrows
    refine hl.takes.bind_quiet ?_
    rw [hchoice]
    refine takes_site.bind_silent ?_
    rw [h]
    exact takes_pure ""
  | run listing rows target values path c hl hrows hchoice hpath h =>
    obtain ⟨outcome, after, calls⟩ := listing
    cases hrows
    -- the run starts from the cache that the listing leaves behind
    refine hl.takes.bind ?_
    rw [hchoice]
    refine takes_site.bind_silent ?_
    rw [hpath]
    exact h.takes

/-- Every question with a choice takes one of the courses, whatever the choice is made by. -/
theorem runChosen_takes (t : Tenant)
    (choose : List DatabaseInfo → Option (ConnectionTarget × ParameterValues))
    (refusal : GatewayError) (name : String) :
    ∃ c, ChosenCourse site cache t choose refusal name c ∧
      (runChosen t choose refusal name).Takes site cache c := by
  have hcourse : ∃ c, ChosenCourse site cache t choose refusal name c := by
    -- the listing has some course, and its outcome says which constructor applies
    obtain ⟨⟨outcome, after, calls⟩, hl, -⟩ : ∃ c, ListingCourse site cache t c ∧ _ :=
      listDatabases_takes t
    cases outcome with
    | error e => exact ⟨_, .unlisted _ e hl rfl⟩
    | ok rows =>
      cases hchoice : choose rows with
      | none => exact ⟨_, .refused _ rows hl rfl hchoice⟩
      | some choice =>
        obtain ⟨target, values⟩ := choice
        cases hpath : site.files.find? name with
        | none => exact ⟨_, .fileless _ rows target values hl rfl hchoice hpath⟩
        | some path =>
          obtain ⟨c, hc, -⟩ : ∃ c, RunCourse site after target ⟨path, values⟩ c ∧ _ :=
            runText_takes target ⟨path, values⟩
          exact ⟨_, .run _ rows target values path c hl rfl hchoice hpath hc⟩
  obtain ⟨c, hc⟩ := hcourse
  exact ⟨c, hc, hc.takes⟩

/-! ### The search and the detail -/

/-- **What the search chooses:** the mapped names in place of the abbreviations. The target stays,
as the command itself looks into the databases that it is given. -/
def searchChoice (target : ConnectionTarget) (values : ParameterValues)
    (rows : List DatabaseInfo) : Option (ConnectionTarget × ParameterValues) :=
  let names := join ";" (mappedNames (abbreviations (suppliedText values "searchdbs")) rows)
  if isAllBlank names then none else some (target, values.insert "searchdbs" (.text names))

/-- **What the detail chooses:** the mapped database in place of the abbreviation. Here the target
moves to that database, and the values lose the abbreviation. -/
def detailChoice (target : ConnectionTarget) (values : ParameterValues)
    (rows : List DatabaseInfo) : Option (ConnectionTarget × ParameterValues) :=
  (mappedName? (suppliedText values "objdb") rows).map fun name =>
    ({ target with database := some name }, values.erase "objdb")

/-- The search is a question with a choice, behind a check of what is asked for: this is what lets
it share the courses of the detail. -/
theorem searchObjects_eq (t : Tenant) (values : ParameterValues) :
    searchObjects t values = (do
      let target ← connectionTarget t
      if (abbreviations (suppliedText values "searchdbs")).isEmpty then
        Serving.fail (.badRequest .searchDatabases)
      else
        runChosen t (searchChoice target values) (.badRequest .searchDatabases)
          objectsDescriptor) := by
  unfold searchObjects runChosen
  -- under the same target and the same rows only the end is to be compared
  refine congrArg (connectionTarget t >>= ·) (funext fun target => ?_)
  refine ite_congr rfl (fun _ => rfl) fun _ => ?_
  refine congrArg (listDatabases t >>= ·) (funext fun rows => ?_)
  unfold searchChoice
  dsimp only
  split
  · rfl
  · rfl

/-- The detail is a question with a choice and nothing before it: an absent abbreviation is not
refused, unlike that of the search. -/
theorem objectDetail_eq (t : Tenant) (values : ParameterValues) :
    objectDetail t values = (do
      let target ← connectionTarget t
      runChosen t (detailChoice target values) (.badRequest .objectDatabase)
        objectDescriptor) := by
  unfold objectDetail runChosen
  refine congrArg (connectionTarget t >>= ·) (funext fun target => ?_)
  refine congrArg (listDatabases t >>= ·) (funext fun rows => ?_)
  unfold detailChoice
  -- a name that is found makes the choice, and none the refusal
  cases mappedName? (suppliedText values "objdb") rows with
  | none => rfl
  | some name => rfl

/-- **How the search goes.** It is refused without a connection and without a name to look for;
otherwise it is a question with a choice. -/
inductive SearchCourse (site : Site) (cache : DescriptorCache) (t : Tenant)
    (values : ParameterValues) : Course String → Prop where
  | unconnected (e : GatewayError) (h : site.registry.connectionString t = .error e) :
    SearchCourse site cache t values ⟨.error e, cache, []⟩
  /-- No database is named. -/
  | unnamed (s : String) (hs : site.registry.connectionString t = .ok s)
      (h : abbreviations (suppliedText values "searchdbs") = []) :
    SearchCourse site cache t values ⟨.error (.badRequest .searchDatabases), cache, []⟩
  | chosen (s : String) (c : Course String) (hs : site.registry.connectionString t = .ok s)
      (hnamed : abbreviations (suppliedText values "searchdbs") ≠ [])
      (h : ChosenCourse site cache t (searchChoice ⟨s, none⟩ values)
        (.badRequest .searchDatabases) objectsDescriptor c) :
    SearchCourse site cache t values c

/-- **The search takes its course.** -/
theorem SearchCourse.takes {values : ParameterValues} {c : Course String}
    (h : SearchCourse site cache t values c) : (searchObjects t values).Takes site cache c := by
  rw [searchObjects_eq]
  have htarget : Takes _ site cache _ := connectionTarget_takes t
  cases h with
  | unconnected e h =>
    rw [h] at htarget
    exact htarget.bind_error
  -- nothing is named: refused before the listing
  | unnamed s hs h =>
    rw [hs] at htarget
    refine htarget.bind_silent ?_
    rw [h]
    exact takes_fail _
  | chosen s c hs hnamed h =>
    rw [hs] at htarget
    refine htarget.bind_silent ?_
    rw [if_neg (by rwa [List.isEmpty_iff])]
    exact h.takes

/-- Every search takes one of the courses. -/
theorem searchObjects_takes (t : Tenant) (values : ParameterValues) :
    ∃ c, SearchCourse site cache t values c ∧ (searchObjects t values).Takes site cache c := by
  -- a connection, then something that is named, and then the course of the choice
  have hcourse : ∃ c, SearchCourse site cache t values c := by
    cases hs : site.registry.connectionString t with
    | error e => exact ⟨_, .unconnected e hs⟩
    | ok s =>
      by_cases hnamed : abbreviations (suppliedText values "searchdbs") = []
      · exact ⟨_, .unnamed s hs hnamed⟩
      · obtain ⟨c, hc, -⟩ : ∃ c, ChosenCourse site cache t (searchChoice ⟨s, none⟩ values)
            (.badRequest .searchDatabases) objectsDescriptor c ∧ _ := runChosen_takes t _ _ _
        exact ⟨c, .chosen s c hs hnamed hc⟩
  obtain ⟨c, hc⟩ := hcourse
  exact ⟨c, hc, hc.takes⟩

/-- **How the detail goes.** Without a connection it is refused, and otherwise it is a question with
a choice, even if no abbreviation is given. -/
inductive DetailCourse (site : Site) (cache : DescriptorCache) (t : Tenant)
    (values : ParameterValues) : Course String → Prop where
  | unconnected (e : GatewayError) (h : site.registry.connectionString t = .error e) :
    DetailCourse site cache t values ⟨.error e, cache, []⟩
  | chosen (s : String) (c : Course String) (hs : site.registry.connectionString t = .ok s)
      (h : ChosenCourse site cache t (detailChoice ⟨s, none⟩ values)
        (.badRequest .objectDatabase) objectDescriptor c) :
    DetailCourse site cache t values c

/-- **The detail takes its course.** -/
theorem DetailCourse.takes {values : ParameterValues} {c : Course String}
    (h : DetailCourse site cache t values c) : (objectDetail t values).Takes site cache c := by
  rw [objectDetail_eq]
  have htarget : Takes _ site cache _ := connectionTarget_takes t
  cases h with
  | unconnected e h =>
    rw [h] at htarget
    exact htarget.bind_error
  | chosen s c hs h =>
    rw [hs] at htarget
    exact htarget.bind_silent h.takes

/-- Every detail takes one of the courses. -/
theorem objectDetail_takes (t : Tenant) (values : ParameterValues) :
    ∃ c, DetailCourse site cache t values c ∧ (objectDetail t values).Takes site cache c := by
  have hcourse : ∃ c, DetailCourse site cache t values c := by
    cases hs : site.registry.connectionString t with
    | error e => exact ⟨_, .unconnected e hs⟩
    | ok s =>
      obtain ⟨c, hc, -⟩ : ∃ c, ChosenCourse site cache t (detailChoice ⟨s, none⟩ values)
          (.badRequest .objectDatabase) objectDescriptor c ∧ _ := runChosen_takes t _ _ _
      exact ⟨c, .chosen s c hs hc⟩
  obtain ⟨c, hc⟩ := hcourse
  exact ⟨c, hc, hc.takes⟩

end QueryGateway.Catalog
