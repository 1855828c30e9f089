import QueryGateway.Proofs.Files.Agreement
import QueryGateway.Proofs.Files.Trail
import QueryGateway.Proofs.Http.Courses
import QueryGateway.Proofs.Settings.Acceptance

/-!
# Where the files are that answer

A file that answers a request has a name that is put together from the endpoint, the media type and,
if it is a static file of a tenant, the key of the tenant. The endpoint is looked at before, the key
is not, neither here nor when settings are validated. So a slash in a key becomes a slash of the
path. What stands before the first one ends the name of a directory of the root, what stands between
is walked from there, and that may be steps to the parent: two of them lead out of the root, and the
file that answers may be anywhere.

`resolve_isInRoot_iff` says when: under accepted settings, whatever the endpoint, the accepted media
and the context are, the path of the file that answers is one name in the root itself
(`FilePath.IsInRoot`), unless the file is the static file of a context with a slash in its name. Of
such a file the theorem says which directory of the root the path goes through and how it goes on
from there (`FilePath.IsThrough`), and of any file whether it is a child of the root, further below
or outside: the path's trail decides, since one that has left the root comes back by the root's own
names or not at all.
-/

namespace QueryGateway

open Text FileTree

/-! ### Paths through directories -/

/-- **A path in the root itself:** one name, and no step to a parent. It is what the program
means by a file of the data sources; whether a path is one can be seen from its parts, without
the tree. -/
def FilePath.IsInRoot (path : FilePath) : Prop :=
  ∃ name, path.parts = [.name name]

/-- **A path through a directory of the root,** as the pieces of a key between its slashes make it:
the first one ends the name of the directory, the last one begins the name of the file, and those
between are walked on the way. -/
def FilePath.IsThrough (path : FilePath) (files : FileTree) (endpoint : String) (media : MediaType)
    (key : String) : Prop :=
  ∃ first between last, split '/' key = first :: between ++ [last] ∧
    path.parts = .name (endpoint ++ ".[" ++ first) :: between.filterMap FilePath.part? ++
      [.name (last ++ ("]." ++ media.extension))] ∧
    files.entry? (files.root ++ [endpoint ++ ".[" ++ first]) = some .directory

theorem FilePath.IsThrough.not_isInRoot {path : FilePath} {files : FileTree} {endpoint : String}
    {media : MediaType} {key : String} (h : path.IsThrough files endpoint media key) :
    ¬ path.IsInRoot := by
  obtain ⟨first, between, last, -, hparts, -⟩ := h
  rintro ⟨name, hname⟩
  rw [hparts] at hname
  -- two names at least, the first and the last
  simp at hname

/-- **A slash behind a name** makes the name a directory on the way, and the rest is walked from
there. -/
theorem FilePath.parts_of_slash {directory rest suffix : String} {path : FilePath}
    (hdirectory : '/' ∉ directory.toList) (hlong : 3 ≤ directory.toList.length)
    (hsuffix : '/' ∉ suffix.toList) (hlong' : 3 ≤ suffix.toList.length)
    (h : FilePath.ofText? (directory ++ "/" ++ rest ++ suffix) = some path) :
    ∃ between last, split '/' rest = between ++ [last] ∧
      path.parts =
        .name directory :: between.filterMap FilePath.part? ++ [.name (last ++ suffix)] := by
  -- the slash splits the text in two, and the suffix goes to the last piece of the second part
  have hchars : (directory ++ "/" ++ rest ++ suffix).toList =
      directory.toList ++ '/' :: (rest.toList ++ suffix.toList) := by simp
  obtain ⟨between, last, hrest, -⟩ := exists_splitChars_concat '/' rest.toList
  refine ⟨between.map String.ofList, String.ofList last, ?_, ?_⟩
  · rw [split, hrest, List.map_append]
    rfl
  · rw [parts_of_ofText? h, split, hchars, splitChars_append_cons hdirectory, List.map_cons,
      String.ofList_toList, List.filterMap_cons, part?_of_length hlong,
      filterMap_part?_append hsuffix hlong' hrest]
    rfl

/-- What a path that leads to a file begins with is a directory, if more comes behind it. -/
theorem FileTree.entry?_of_isFile {files : FileTree} {path : FilePath} {directory : String}
    {rest : List PathPart} (hfile : files.isFile path = true)
    (hparts : path.parts = .name directory :: rest) (hrest : rest ≠ []) :
    files.entry? (files.root ++ [directory]) = some .directory := by
  -- a walk to a file asks for a directory wherever it goes on
  obtain ⟨hadmits, -⟩ := isFile_eq_true_iff.1 hfile
  rw [admits, Bool.and_eq_true] at hadmits
  obtain ⟨part, rest, rfl⟩ := List.exists_cons_of_ne_nil hrest
  have hopen := hadmits.2
  rw [hparts] at hopen
  simp only [isOpen, step, Bool.and_eq_true, decide_eq_true_iff, List.reverse_cons,
    List.reverse_reverse] at hopen
  exact hopen.2.2.1

/-- **The static file of a tenant whose key has a slash** is reached through a directory. -/
theorem isThrough_of_slash {endpoint : String} (hsafe : isSafeEndpoint endpoint = true)
    {t : Tenant} (hkey : '/' ∈ t.key.toList) {media : MediaType} {files : FileTree}
    {path : FilePath} (h : files.find? (staticName endpoint media (some t)) = some path) :
    path.IsThrough files endpoint media t.key := by
  obtain ⟨hpath, hfile⟩ := Option.filter_eq_some_iff.1 h
  obtain ⟨first, after, hsplit, hfirst⟩ := List.eq_append_cons_of_mem hkey
  -- the name of the directory is what stands before the first slash
  have hname : staticName endpoint media (some t) =
      endpoint ++ ".[" ++ String.ofList first ++ "/" ++ String.ofList after ++
        ("]." ++ media.extension) := by
    rw [String.ext_iff]
    simp [staticName, hsplit]
  rw [hname] at hpath
  have hdirectory : '/' ∉ (endpoint ++ ".[" ++ String.ofList first).toList := by
    simp only [String.toList_append, List.mem_append, not_or, String.toList_ofList]
    exact ⟨⟨not_mem_of_isSafeEndpoint hsafe, by decide⟩, hfirst⟩
  -- the endpoint is not empty, so the name of the directory is longer than a step to the parent
  have hlong : 3 ≤ (endpoint ++ ".[" ++ String.ofList first).toList.length := by
    have hpos := length_pos_of_isSafeEndpoint hsafe
    have hbracket : ".[".toList.length = 2 := rfl
    simp only [String.toList_append, List.length_append, hbracket]
    omega
  have hsuffix : '/' ∉ ("]." ++ media.extension).toList ∧
      3 ≤ ("]." ++ media.extension).toList.length := by
    cases media <;> decide
  obtain ⟨between, last, hbetween, hparts⟩ :=
    FilePath.parts_of_slash hdirectory hlong hsuffix.1 hsuffix.2 hpath
  refine ⟨String.ofList first, between, last, ?_, hparts, ?_⟩
  · -- the pieces of the key are what stands before its first slash and the pieces of the rest
    rw [split, String.toList_ofList] at hbetween
    rw [split, hsplit, splitChars_append_cons hfirst, List.map_cons, hbetween]
    rfl
  · exact entry?_of_isFile hfile hparts (List.concat_ne_nil _ _)

/-! ### Files that answer -/

/-- The path of what answers a request, if it is a file: that of the descriptor, or that of the
static file. -/
def Artifact.path? : Artifact → Option FilePath
  | .templated path _ | .static path => some path
  | .nothing => none

theorem Artifact.path?_eq_some_iff {a : Artifact} {path : FilePath} :
    a.path? = some path ↔ (∃ t, a = .templated path t) ∨ a = .static path := by
  cases a <;> simp [path?]

/-- **A file that answers is in the root,** unless it is the static file of a tenant whose key has a
slash, and then it is reached through a directory. -/
theorem resolveArtifact_isInRoot_iff {files : FileTree} {tenant : Option Tenant}
    {endpoint : String} {media : MediaType} {path : FilePath}
    (h : (resolveArtifact files tenant endpoint media).path? = some path) :
    files.isFile path = true ∧
      (path.IsInRoot ↔ ¬ (resolveArtifact files tenant endpoint media = .static path ∧
        ∃ t, tenant = some t ∧ '/' ∈ t.key.toList)) ∧
      (¬ path.IsInRoot →
        ∃ t, tenant = some t ∧ path.IsThrough files endpoint media t.key) := by
  rcases Artifact.path?_eq_some_iff.1 h with ⟨t, hartifact⟩ | hartifact
  · -- the name of a descriptor holds no key
    obtain ⟨hsafe, -, hfind⟩ := resolveArtifact_eq_templated_iff.1 hartifact
    have hroot : path.IsInRoot :=
      ⟨_, (isSingle_descriptorName hsafe media).parts_of_find? hfind⟩
    refine ⟨isFile_of_find? hfind, iff_of_true hroot fun hstatic => ?_, absurd hroot⟩
    rw [hartifact] at hstatic
    cases hstatic.1
  · -- a static file: whether its name is one part depends on the key alone
    obtain ⟨hsafe, hfind⟩ := find?_of_resolveArtifact_eq_static hartifact
    by_cases hslash : ∃ t, tenant = some t ∧ '/' ∈ t.key.toList
    · obtain ⟨t, rfl, hkey⟩ := hslash
      have hthrough := isThrough_of_slash hsafe hkey hfind
      exact ⟨isFile_of_find? hfind,
        iff_of_false hthrough.not_isInRoot (not_not_intro ⟨hartifact, t, rfl, hkey⟩),
        fun _ => ⟨t, rfl, hthrough⟩⟩
    · have hkey : ∀ t, tenant = some t → '/' ∉ t.key.toList := by
        intro t ht hmem
        exact hslash ⟨t, ht, hmem⟩
      have hroot : path.IsInRoot :=
        ⟨_, (isSingle_staticName hsafe media hkey).parts_of_find? hfind⟩
      exact ⟨isFile_of_find? hfind, iff_of_true hroot fun hstatic => hslash hstatic.2,
        absurd hroot⟩

/-! ### Accepted settings -/

/-- Whether a name leads to a context with a slash in its own name. The name of the request may be
spelled in another way, as both are compared by their keys. -/
def Settings.HasSlashUnder (s : Settings) (name : String) : Prop :=
  ∃ c ∈ s.contexts, contextKey c.1 = contextKey name ∧ '/' ∈ c.1.toList

/-- A tenant has a slash in its key if its context has one in its name. -/
theorem Settings.IsValid.exists_slash_iff {s : Settings} (h : s.IsValid)
    (context : Option String) :
    (∃ t, context.bind (TenantRegistry.ofSettings s).find? = some t ∧ '/' ∈ t.key.toList) ↔
      ∃ name, context = some name ∧ s.HasSlashUnder name := by
  constructor
  · -- the tenant's key is that of its context, and both have their slashes in the same places
    rintro ⟨t, ht, hslash⟩
    obtain ⟨name, hname, hfind⟩ := Option.bind_eq_some_iff.1 ht
    obtain ⟨-, c, hc, hkey, rfl⟩ := (TenantRegistry.find?_ofSettings_eq_some_iff h.keys).1 hfind
    exact ⟨name, hname, c, hc, hkey, (slash_mem_contextKey_iff c.1).1 hslash⟩
  · -- back: the name of the context is not blank, so the registry finds its tenant
    rintro ⟨name, rfl, c, hc, hkey, hslash⟩
    have hnonblank : isAllBlank name = false := by
      have hcontext : isAllBlank c.1 = false := h.names c hc
      rw [← isAllBlank_contextKey, ← hkey, isAllBlank_contextKey]
      exact hcontext
    refine ⟨.ofContext c.1 c.2, ?_, (slash_mem_contextKey_iff c.1).2 hslash⟩
    exact (TenantRegistry.find?_ofSettings_eq_some_iff h.keys).2 ⟨hnonblank, c, hc, hkey, rfl⟩

/-- **Where the file is that answers.** Under accepted settings, for any endpoint, any accepted
media and any context or none, what answers is a file. Its path is one name in the root itself
exactly if it is not the static file of a context with a slash in its name, and then the file is a
child of the root. Otherwise the path goes through a directory of the root and on by the pieces of
the key. The file is below the root by some names exactly if the trail of the path comes back by the
root's last names and goes on by these; it is outside if the trail does not come back. -/
theorem resolve_isInRoot_iff {text : String} {s : Settings} (h : Settings.parse text = .ok s)
    (files : FileTree) (context : Option String) (endpoint : String) (accepted : AcceptedMedia)
    {path : FilePath} :
    let tenant := context.bind (TenantRegistry.ofSettings s).find?
    let artifact := (resolve files tenant endpoint accepted).artifact
    let standing := place files.root path.parts
    artifact.path? = some path →
      (files.isFile path = true ∧ ∃ content, files.entry? standing = some (.file content)) ∧
      (path.IsInRoot ↔
        ¬ (artifact = .static path ∧ ∃ name, context = some name ∧ s.HasSlashUnder name)) ∧
      (path.IsInRoot → ∃ name, standing = files.root ++ [name]) ∧
      (¬ path.IsInRoot →
        ∃ t, tenant = some t ∧ path.IsThrough files endpoint accepted.preferred t.key) ∧
      (∀ names, standing = files.root ++ names ↔
        path.trail.names = path.trail.wayBack files.root ++ names) ∧
      (¬ files.root <+: standing ↔ ¬ path.trail.wayBack files.root <+: path.trail.names) := by
  intro tenant artifact standing hpath
  -- what is accepted has distinct keys, which lets the registry speak for the settings
  obtain ⟨_, -, -, hvalid⟩ := Settings.exists_tree_of_parse h
  rw [← hvalid.exists_slash_iff context]
  obtain ⟨hfile, hroot, hthrough⟩ := resolveArtifact_isInRoot_iff hpath
  refine ⟨⟨hfile, (isFile_eq_true_iff.1 hfile).2⟩, hroot, ?_, hthrough,
    fun names => place_eq_append_iff, not_congr root_isPrefix_place_iff⟩
  -- a single name is one step down from the root
  rintro ⟨name, hparts⟩
  refine ⟨name, ?_⟩
  change place files.root path.parts = files.root ++ [name]
  rw [hparts, ← List.nil_append [PathPart.name name], place_concat, place_nil]

/-! ### Contexts with slashes -/

/-- Settings with two contexts whose names have slashes. The second leads out of the root. -/
def slashContexts : String :=
  "\x7b\"contexts\": \x7b\"a/b\": \x7b\x7d, \"a/../../x\": \x7b\x7d\x7d\x7d"

/-- What the settings say. -/
def slashSettings : Settings where
  contexts := [("a/b", {}), ("a/../../x", {})]

/-- The path of the static file of the first context. -/
def slashPath : FilePath := ⟨[.name "w.[a", .name "b].json"], false, 12⟩

/-- The path of the static file of the second context. -/
def escapePath : FilePath := ⟨[.name "w.[a", .parent, .parent, .name "x].json"], false, 18⟩

/-- A site with no file in the root itself. One is in a directory of the root, the other one stands
beside the root. -/
def slashSite : Site :=
  ⟨.ofSettings slashSettings, (FileTree.empty.write slashPath [0x31]).write escapePath [0x32],
    ⟨fun _ _ => .ok [], fun _ _ => .ok []⟩⟩

/-- A request under a context. -/
def requestUnder (context : String) : Http.Request :=
  ⟨"GET", .parse ("/api/w?ctx=" ++ context), []⟩

/-- What a request under a context resolves to. -/
def artifactUnder (context : String) : Artifact :=
  (resolve slashSite.files ((some context).bind (TenantRegistry.ofSettings slashSettings).find?)
    "w" (requestUnder context).accepted).artifact

/-- **Files below the root and beside it are served.** -/
theorem resolve_isInRoot_iff_slash :
    Settings.parse slashContexts = .ok slashSettings ∧
      (requestUnder "a/b").context? = some "a/b" ∧
      (requestUnder "a/../../x").context? = some "a/../../x" ∧
      (artifactUnder "a/b" = .static slashPath ∧ ¬ slashPath.IsInRoot ∧
        place slashSite.files.root slashPath.parts = slashSite.files.root ++ ["w.[a", "b].json"]) ∧
      (artifactUnder "a/../../x" = .static escapePath ∧ ¬ escapePath.IsInRoot ∧
        ¬ slashSite.files.root <+: place slashSite.files.root escapePath.parts) ∧
      let serve context := Http.answer slashSite { cache := { isEnabled := true } }
        (requestUnder context)
      (serve "a/b").1 = { status := 200, contentType := some "application/json", body := "1" } ∧
      (serve "a/../../x").1 =
        { status := 200, contentType := some "application/json", body := "2" } := by
  have h : Settings.parse slashContexts = .ok slashSettings :=
    except_eq_ok_of_toOption (by decide +kernel)
  -- both contexts are configured, and both have a slash in their names
  have hslash : slashSettings.HasSlashUnder "a/b" :=
    ⟨("a/b", {}), List.mem_cons_self, rfl, by decide⟩
  have hslash' : slashSettings.HasSlashUnder "a/../../x" :=
    ⟨("a/../../x", {}), List.mem_cons_of_mem _ List.mem_cons_self, rfl, by decide⟩
  have hartifact : artifactUnder "a/b" = .static slashPath := by decide +kernel
  have hartifact' : artifactUnder "a/../../x" = .static escapePath := by decide +kernel
  obtain ⟨-, hroot, -, -, hbelow, -⟩ := resolve_isInRoot_iff h slashSite.files (some "a/b") "w"
    (requestUnder "a/b").accepted (congrArg Artifact.path? hartifact)
  obtain ⟨-, hroot', -, -, -, houtside⟩ := resolve_isInRoot_iff h slashSite.files
    (some "a/../../x") "w" (requestUnder "a/../../x").accepted
    (congrArg Artifact.path? hartifact')
  refine ⟨h, by decide +kernel, by decide +kernel, ⟨hartifact, ?_, ?_⟩, ⟨hartifact', ?_, ?_⟩,
    by decide +kernel, by decide +kernel⟩
  · exact fun hin => hroot.1 hin ⟨hartifact, "a/b", rfl, hslash⟩
  · exact (hbelow _).2 (by decide)
  · exact fun hin => hroot'.1 hin ⟨hartifact', "a/../../x", rfl, hslash'⟩
  · -- up by two from the directory is up by one from the root, and the way back is not taken
    exact houtside.2 (by decide)

end QueryGateway
