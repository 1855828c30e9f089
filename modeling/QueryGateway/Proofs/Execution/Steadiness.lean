import QueryGateway.Proofs.Catalog.Courses
import QueryGateway.Proofs.Execution.Entries
import QueryGateway.Proofs.Files.Agreement

/-!
# Actions that do not tell what is kept

While the files stand still, a kept descriptor is as good as one that is compiled again. A cache is
faithful if every entry is what the file at its path compiles to (`DescriptorCache.IsFaithful`).
From a faithful cache a load comes to what compiling comes to, whether it finds an entry or not, and
it leaves a faithful cache (`load_of_isFaithful`). Entries go by the parts of their paths, so this
takes that paths of equal parts never lead to two files (`FileTree.readText_congr`); it is why loads
are spoken of for paths that lead to files only, which are those that names are looked up to.

An action of `Serving` is steady if one outcome and one list of questions are all that it comes to,
from whatever faithful cache it starts, and if it leaves a faithful cache (`Serving.IsSteady`).
Chains of steady actions are steady (`IsSteady.bind`), and so are all the actions that requests are
answered with.
-/

namespace QueryGateway

variable {files : FileTree} {path other : FilePath}

/-! ### Paths of equal parts -/

/-- **Paths of equal parts lead to one file,** if they lead to files at all. -/
theorem FileTree.readText_congr (hpath : files.isFile path = true)
    (hother : files.isFile other = true) (h : path.parts = other.parts) :
    files.readText path = files.readText other := by
  obtain ⟨hadmits, content, hentry⟩ := isFile_eq_true_iff.1 hpath
  obtain ⟨hadmits', -⟩ := isFile_eq_true_iff.1 hother
  have hentry' : files.entry? (place files.root other.parts) = some (.file content) := by
    rw [← h, hentry]
  rw [readText, readText, read_of_entry? hadmits hentry, read_of_entry? hadmits' hentry']

theorem compileFile_congr (hpath : files.isFile path = true) (hother : files.isFile other = true)
    (h : path.parts = other.parts) : compileFile files path = compileFile files other := by
  rw [compileFile, compileFile, FileTree.readText_congr hpath hother h]

/-! ### Faithful caches -/

namespace DescriptorCache

variable {c : DescriptorCache}

/-- **A cache that says what the files say:** every entry is what its file compiles to. -/
def IsFaithful (c : DescriptorCache) (files : FileTree) : Prop :=
  ∀ entry ∈ c.entries, ∃ path : FilePath, path.parts = entry.1 ∧ files.isFile path = true ∧
    compileFile files path = .ok entry.2.descriptor

theorem isFaithful_of_empty {c : DescriptorCache} (h : c.entries = []) : c.IsFaithful files := by
  intro entry hentry
  rw [h] at hentry
  exact absurd hentry List.not_mem_nil

/-- What is found in a faithful cache is what the file compiles to now. -/
theorem IsFaithful.compileFile_eq (h : c.IsFaithful files) (hpath : files.isFile path = true)
    {kept : SharedDescriptor} (hkept : c.lookup? path = some kept) :
    compileFile files path = .ok kept.descriptor := by
  obtain ⟨stored, hparts, hfile, hcompile⟩ := h _ (mem_entries_of_lookup? hkept)
  rw [← hcompile]
  exact compileFile_congr hpath hfile hparts.symm

/-- What has just been compiled may be kept. -/
theorem IsFaithful.keep (h : c.IsFaithful files) (hpath : files.isFile path = true)
    {shared : SharedDescriptor} (hshared : compileFile files path = .ok shared.descriptor) :
    (c.keep path shared).2.IsFaithful files := by
  intro entry hentry
  rcases mem_entries_keep hentry with hold | ⟨-, rfl⟩
  · exact h entry hold
  · exact ⟨path, rfl, hpath, hshared⟩

/-- **A load from a faithful cache** comes to what compiling comes to, and leaves a faithful
cache. -/
theorem load_of_isFaithful (h : c.IsFaithful files) (hpath : files.isFile path = true) :
    (c.load files path).1.map (·.descriptor) = compileFile files path ∧
      (c.load files path).2.IsFaithful files := by
  rw [load]
  cases hlookup : c.lookup? path with
  | some kept => exact ⟨(h.compileFile_eq hpath hlookup).symm, h⟩
  | none =>
    cases hcompile : compileFile files path with
    | error e => exact ⟨rfl, h⟩
    | ok d =>
      -- sharing leaves the entries alone
      have hshare : (c.share d).2.IsFaithful files := h
      refine ⟨?_, hshare.keep hpath hcompile⟩
      dsimp only
      -- what is kept in place of the new descriptor was compiled from the same file
      have hkeeping := (c.share d).2.keep_keeping path (c.share d).1
      generalize (c.share d).2.keep path (c.share d).1 = after at *
      cases hkeeping with
      | found kept hfound => exact (hshare.compileFile_eq hpath hfound).symm.trans hcompile
      | added hon hnew => rfl
      | off hoff => rfl

end DescriptorCache

/-! ### Steady actions -/

namespace Serving

variable {α β : Type} {site : Site}

/-- **A steady action** has one outcome and one list of questions, from whatever faithful cache, and
leaves a faithful cache. -/
def IsSteady (x : Serving α) (site : Site) : Prop :=
  ∃ outcome calls, ∀ cache : DescriptorCache, cache.IsFaithful site.files →
    ∃ after : DescriptorCache, after.IsFaithful site.files ∧
      x.Takes site cache ⟨outcome, after, calls⟩

/-- An action that leaves the cache alone is steady. -/
theorem isSteady_of_takes {x : Serving α} {outcome : Except GatewayError α} {calls : List Call}
    (h : ∀ cache, x.Takes site cache ⟨outcome, cache, calls⟩) : x.IsSteady site :=
  ⟨outcome, calls, fun cache hcache => ⟨cache, hcache, h cache⟩⟩

theorem isSteady_pure (a : α) : (Pure.pure a : Serving α).IsSteady site :=
  isSteady_of_takes fun _ => takes_pure a

theorem isSteady_lift (r : Except GatewayError α) : (lift r).IsSteady site :=
  isSteady_of_takes fun _ => takes_lift r

/-- **Chains** of steady actions. -/
theorem IsSteady.bind {x : Serving α} {f : α → Serving β} (hx : x.IsSteady site)
    (hf : ∀ a, (f a).IsSteady site) : (x >>= f).IsSteady site := by
  obtain ⟨outcome, calls, hx⟩ := hx
  -- an error ends the chain, and its calls are those so far
  cases outcome with
  | error e =>
    refine ⟨.error e, calls, fun cache hcache => ?_⟩
    obtain ⟨after, hafter, htakes⟩ := hx cache hcache
    exact ⟨after, hafter, htakes.bind_error⟩
  | ok a =>
    obtain ⟨outcome, later, hf⟩ := hf a
    refine ⟨outcome, calls ++ later, fun cache hcache => ?_⟩
    -- what comes next starts from the cache that the first action leaves
    obtain ⟨between, hbetween, htakes⟩ := hx cache hcache
    obtain ⟨after, hafter, htakes'⟩ := hf between hbetween
    exact ⟨after, hafter, htakes.bind htakes'⟩

/-- **Reading the site** is steady, if what is done with it is. -/
theorem isSteady_site {k : Site → Serving β} (h : (k site).IsSteady site) :
    (Serving.site >>= k).IsSteady site := by
  obtain ⟨outcome, calls, hk⟩ := h
  refine ⟨outcome, calls, fun cache hcache => ?_⟩
  obtain ⟨after, hafter, htakes⟩ := hk cache hcache
  exact ⟨after, hafter, takes_site.bind_silent htakes⟩

theorem loadDescriptor_isSteady (hpath : site.files.isFile path = true) :
    (loadDescriptor path).IsSteady site := by
  refine ⟨compileFile site.files path, [], fun cache hcache => ?_⟩
  obtain ⟨houtcome, hafter⟩ := DescriptorCache.load_of_isFaithful hcache hpath
  refine ⟨_, hafter, ?_⟩
  rw [← houtcome]
  exact takes_loadDescriptor path

end Serving

open Serving

variable {site : Site}

/-! ### Commands -/

theorem connectionTarget_isSteady (t : Tenant) : (connectionTarget t).IsSteady site :=
  isSteady_of_takes fun _ => connectionTarget_takes t

theorem prepare_isSteady (hpath : site.files.isFile path = true) (values : ParameterValues) :
    (prepare path values).IsSteady site :=
  (loadDescriptor_isSteady hpath).bind fun _ => (isSteady_lift _).bind fun _ => isSteady_pure _

theorem runText_isSteady (hpath : site.files.isFile path = true) (target : ConnectionTarget)
    (values : ParameterValues) : (runText target path values).IsSteady site := by
  refine (prepare_isSteady hpath values).bind fun command => ?_
  have hfetch : (fetchFirstColumn target command ⟨path, values⟩).IsSteady site :=
    isSteady_of_takes fun _ => takes_fetchFirstColumn target command _
  exact hfetch.bind fun _ => isSteady_pure _

/-- **What answers is worked steadily,** if the descriptor in it was found. -/
theorem Artifact.text_isSteady {a : Artifact} (values : ParameterValues)
    (h : ∀ path t, a = .templated path t → site.files.isFile path = true) :
    (a.text values).IsSteady site := by
  cases a with
  | templated path t =>
    exact (connectionTarget_isSteady t).bind fun target =>
      runText_isSteady (h path t rfl) target values
  | static path => exact isSteady_site (isSteady_lift _)
  | nothing => exact isSteady_pure ""

/-! ### The catalog -/

namespace Catalog

/-- The listing asks the same from every cache that agrees with the files: its descriptor is a file,
so loading it gives the same either way. -/
theorem listDatabases_isSteady (t : Tenant) : (listDatabases t).IsSteady site := by
  refine isSteady_site ?_
  cases site.registry.connectionString t with
  | error e => exact isSteady_pure []
  | ok connectionString =>
    cases hfind : site.files.find? databasesDescriptor with
    | none => exact isSteady_pure []
    | some path =>
      refine (prepare_isSteady (FileTree.isFile_of_find? hfind) _).bind fun command => ?_
      exact isSteady_of_takes fun _ => takes_fetchDatabases _ command _

theorem runNamed_isSteady (target : ConnectionTarget) (name : String) (values : ParameterValues) :
    (runNamed target name values).IsSteady site := by
  refine isSteady_site ?_
  cases hfind : site.files.find? name with
  | none => exact isSteady_pure ""
  | some path => exact runText_isSteady (FileTree.isFile_of_find? hfind) target values

theorem runChosen_isSteady (t : Tenant)
    (choose : List DatabaseInfo → Option (ConnectionTarget × ParameterValues))
    (refusal : GatewayError) (name : String) : (runChosen t choose refusal name).IsSteady site := by
  refine (listDatabases_isSteady t).bind fun rows => ?_
  cases choose rows with
  | none => exact isSteady_lift _
  | some choice => exact runNamed_isSteady choice.1 name choice.2

theorem searchObjects_isSteady (t : Tenant) (values : ParameterValues) :
    (searchObjects t values).IsSteady site := by
  rw [searchObjects_eq]
  refine (connectionTarget_isSteady t).bind fun target => ?_
  split
  · exact isSteady_lift _
  · exact runChosen_isSteady t _ _ _

theorem objectDetail_isSteady (t : Tenant) (values : ParameterValues) :
    (objectDetail t values).IsSteady site := by
  rw [objectDetail_eq]
  exact (connectionTarget_isSteady t).bind fun _ => runChosen_isSteady t _ _ _

end Catalog

end QueryGateway
