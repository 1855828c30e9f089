import QueryGateway.Catalog
import QueryGateway.Proofs.Files.Agreement

/-!
# Actions on two trees of files

An action of `Serving` is alike on two trees if no progress makes a difference between them
(`Serving.Alike`). Chains of such actions are alike (`Alike.bind`), and so is what reads the site
if it goes on alike (`alike_site`). All files are found by name before they are read, so an action
is alike as soon as the trees have the same files under the names that it asks for
(`FileTree.SameUnder`): those of the catalog have fixed names, and for the rest the name is a
hypothesis.
-/

namespace QueryGateway

namespace Serving

variable {α β : Type} {site : Site} {files : FileTree}

/-- **An action that does not tell** a site from the one with other files: it ends alike, asks alike
and leaves the same cache, wherever it begins. -/
def Alike (x : Serving α) (site : Site) (files : FileTree) : Prop :=
  ∀ p, x { site with files } p = x site p

theorem alike_pure (a : α) : (Pure.pure a : Serving α).Alike site files :=
  fun _ => rfl

theorem alike_lift (r : Except GatewayError α) : (lift r).Alike site files :=
  fun _ => rfl

/-- **Chains** of actions that do not tell. -/
theorem Alike.bind {x : Serving α} {f : α → Serving β} (hx : x.Alike site files)
    (hf : ∀ a, (f a).Alike site files) : (x >>= f).Alike site files := by
  intro p
  change Serving.bind x f { site with files } p = Serving.bind x f site p
  -- the first action is the same from every progress, and so is the one it leads to
  rw [Serving.bind, Serving.bind, hx p]
  cases x site p with
  | mk r p =>
    cases r with
    | error e => rfl
    | ok a => exact hf a p

/-- **Reading the site** does not tell, if what is done with it does not. -/
theorem alike_site {k : Site → Serving β}
    (h : ∀ p, k { site with files } { site with files } p = k site site p) :
    (Serving.site >>= k).Alike site files :=
  h

theorem alike_loadDescriptor {path : FilePath}
    (h : site.files.readText path = files.readText path) :
    (loadDescriptor path).Alike site files := by
  -- a hit needs no file, and a miss compiles the same text
  have hcompile : compileFile files path = compileFile site.files path := by
    rw [compileFile, compileFile, h]
  intro p
  simp only [loadDescriptor, DescriptorCache.load, hcompile]

end Serving

open Serving

variable {site : Site} {files : FileTree} {path : FilePath}

/-! ### Commands -/

theorem connectionTarget_alike (t : Tenant) : (connectionTarget t).Alike site files :=
  alike_site fun _ => rfl

theorem prepare_alike (h : site.files.readText path = files.readText path)
    (values : ParameterValues) : (prepare path values).Alike site files :=
  (alike_loadDescriptor h).bind fun _ => (alike_lift _).bind fun _ => alike_pure _

theorem runText_alike (h : site.files.readText path = files.readText path)
    (target : ConnectionTarget) (values : ParameterValues) :
    (runText target path values).Alike site files :=
  (prepare_alike h values).bind fun _ => Alike.bind (fun _ => rfl) fun _ => alike_pure _

/-- **What answers is worked alike,** if its file says the same. -/
theorem Artifact.text_alike {a : Artifact} (values : ParameterValues)
    (h : ∀ path, (∃ t, a = .templated path t) ∨ a = .static path →
      site.files.readText path = files.readText path) : (a.text values).Alike site files := by
  -- a descriptor and a static file are read; nothing else of the files is
  cases a with
  | templated path t =>
    exact (connectionTarget_alike t).bind fun target =>
      runText_alike (h path (.inl ⟨t, rfl⟩)) target values
  | static path =>
    refine alike_site fun p => ?_
    rw [h path (.inr rfl)]
    rfl
  | nothing => exact alike_pure ""

/-! ### The catalog -/

namespace Catalog

/-- The listing reads one file, the descriptor that is found for it. -/
theorem listDatabases_alike (h : site.files.SameUnder files databasesDescriptor) (t : Tenant) :
    (listDatabases t).Alike site files := by
  refine alike_site fun p => ?_
  rw [← h.find?_eq]
  cases site.registry.connectionString t with
  | error e => rfl
  | ok connectionString =>
    -- the same file is found or missed in both, and where it is found it says the same
    cases hfind : site.files.find? databasesDescriptor with
    | none => rfl
    | some path =>
      exact (prepare_alike (h.readText_eq path hfind) _).bind (fun _ _ => rfl) p

theorem runNamed_alike {name : String} (h : site.files.SameUnder files name)
    (target : ConnectionTarget) (values : ParameterValues) :
    (runNamed target name values).Alike site files := by
  refine alike_site fun p => ?_
  rw [← h.find?_eq]
  cases hfind : site.files.find? name with
  | none => rfl
  | some path => exact runText_alike (h.readText_eq path hfind) target values p

variable (hlisting : site.files.SameUnder files databasesDescriptor)

include hlisting

/-- A search reads the descriptor of the listing and that of the objects, so trees that agree under
both names cannot be told apart by it. -/
theorem searchObjects_alike (hobjects : site.files.SameUnder files objectsDescriptor) (t : Tenant)
    (values : ParameterValues) : (searchObjects t values).Alike site files := by
  refine (connectionTarget_alike t).bind fun target => ?_
  dsimp only
  split
  · exact alike_lift _
  · -- the names are read off rows, and the rows come from the runner
    refine (listDatabases_alike hlisting t).bind fun databases => ?_
    split
    · exact alike_lift _
    · exact runNamed_alike hobjects target _

theorem objectDetail_alike (hobject : site.files.SameUnder files objectDescriptor) (t : Tenant)
    (values : ParameterValues) : (objectDetail t values).Alike site files := by
  refine (connectionTarget_alike t).bind fun target => ?_
  refine (listDatabases_alike hlisting t).bind fun databases => ?_
  split
  · exact alike_lift _
  · exact runNamed_alike hobject _ _

end Catalog

end QueryGateway
