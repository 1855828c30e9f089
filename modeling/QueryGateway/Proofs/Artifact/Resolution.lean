import QueryGateway.Artifact.Resolution
import QueryGateway.Proofs.Text.Split

/-!
# Names of files

An endpoint is looked for under a name that is made from it, if it is safe (`IsSafeName`). A name
without slashes, other than the names of the directory and its parent, is one part of a path
(`parts_of_find?`). Names that are made from safe endpoints are of this kind: those of descriptors
always (`isSingle_descriptorName`), those of static files unless a key with a slash is in them
(`isSingle_staticName`). So the file that is found stands in the root itself, and since the name of
a descriptor tells its endpoint and its media type (`descriptorName_inj`), no two endpoints share a
descriptor. `resolveArtifact_eq_templated_iff` says when a descriptor is what answers.
-/

namespace QueryGateway

open Text

/-! ### Safe endpoints -/

/-- **Names that can stand in the name of a file** without leading elsewhere. This is the condition
that endpoints are held to, clause by clause; keys of tenants are held to none. -/
structure IsSafeName (name : String) : Prop where
  ne_empty : name ≠ ""
  no_slash : '/' ∉ name.toList
  no_backslash : '\\' ∉ name.toList
  no_doublePoint : ¬ ['.', '.'] <:+: name.toList
  no_leadingPoint : name.toList.head? ≠ some '.'

theorem hasDoublePoint_eq_true_iff {cs : List Char} :
    hasDoublePoint cs = true ↔ ['.', '.'] <:+: cs := by
  fun_induction hasDoublePoint cs with
  | case1 => simp
  | case2 cs => exact iff_of_true rfl ⟨[], cs, rfl⟩
  | case3 c cs hnot ih =>
    rw [ih, List.infix_cons_iff]
    refine (or_iff_right fun hprefix => ?_).symm
    -- two points in front are what the case before is about
    obtain ⟨rest, hrest⟩ := hprefix
    obtain ⟨rfl, rfl⟩ := List.cons.inj hrest
    exact hnot rest rfl rfl

/-- The check of an endpoint, clause by clause: not empty, no slash of either kind, no two points in
a row, and not a single point. -/
theorem isSafeEndpoint_eq_true_iff {endpoint : String} :
    isSafeEndpoint endpoint = true ↔ IsSafeName endpoint := by
  have hpoints : hasDoublePoint endpoint.toList = false ↔ ¬ ['.', '.'] <:+: endpoint.toList := by
    rw [← Bool.not_eq_true, hasDoublePoint_eq_true_iff]
  simp only [isSafeEndpoint, Bool.and_eq_true, Bool.not_eq_true', bne_iff_ne,
    List.isEmpty_eq_false_iff, List.contains_eq_mem, decide_eq_false_iff_not, hpoints]
  constructor
  · rintro ⟨⟨⟨⟨hempty, hpoint⟩, hslash⟩, hbackslash⟩, hdouble⟩
    exact ⟨fun h => hempty (by rw [h]; rfl), hslash, hbackslash, hdouble, hpoint⟩
  · -- back, where only the empty text is stated in another way
    rintro ⟨hempty, hslash, hbackslash, hdouble, hpoint⟩
    refine ⟨⟨⟨⟨fun h => hempty ?_, hpoint⟩, hslash⟩, hbackslash⟩, hdouble⟩
    rw [String.ext_iff, h]
    rfl

/-! ### Names of one part -/

/-- A name that is one part of a path: it has no separator in it and is no step of its own. -/
structure IsSingleName (name : String) : Prop where
  no_slash : '/' ∉ name.toList
  ne_empty : name ≠ ""
  ne_here : name ≠ "."
  ne_parent : name ≠ ".."

theorem ne_of_length_lt {s name : String} (hs : s.toList.length < 3)
    (hlong : 3 ≤ name.toList.length) : name ≠ s := by
  rintro rfl
  omega

/-- **Names of three characters and more** are steps to no directory that is there anyway. -/
theorem IsSingleName.of_length {name : String} (hslash : '/' ∉ name.toList)
    (hlong : 3 ≤ name.toList.length) : IsSingleName name where
  no_slash := hslash
  ne_empty := ne_of_length_lt (by decide) hlong
  ne_here := ne_of_length_lt (by decide) hlong
  ne_parent := ne_of_length_lt (by decide) hlong

theorem FilePath.part?_of_length {name : String} (hlong : 3 ≤ name.toList.length) :
    FilePath.part? name = some (.name name) := by
  have hempty : name ≠ "" := ne_of_length_lt (by decide) hlong
  have hhere : name ≠ "." := ne_of_length_lt (by decide) hlong
  have hparent : name ≠ ".." := ne_of_length_lt (by decide) hlong
  simp [FilePath.part?, hempty, hhere, hparent]

/-- The parts of a path are those between the slashes that say anything. -/
theorem FilePath.parts_of_ofText? {s : String} {path : FilePath}
    (h : FilePath.ofText? s = some path) : path.parts = (split '/' s).filterMap part? := by
  rw [ofText?] at h
  split at h
  · cases h
  · rw [← Option.some.inj h]

/-- **The path of such a name** has the name for its only part. -/
theorem IsSingleName.parts {name : String} (h : IsSingleName name) {path : FilePath}
    (hpath : FilePath.ofText? name = some path) : path.parts = [.name name] := by
  have hpart : FilePath.part? name = some (.name name) := by
    simp [FilePath.part?, h.ne_empty, h.ne_here, h.ne_parent]
  rw [FilePath.parts_of_ofText? hpath, split, splitChars_of_not_mem h.no_slash]
  simp [hpart]

/-- **The file that is found under such a name** stands in the root. -/
theorem IsSingleName.parts_of_find? {name : String} (h : IsSingleName name) {files : FileTree}
    {path : FilePath} (hpath : files.find? name = some path) : path.parts = [.name name] :=
  h.parts (Option.filter_eq_some_iff.1 hpath).1

/-! ### Names of descriptors -/

theorem not_mem_of_isSafeEndpoint {endpoint : String} (h : isSafeEndpoint endpoint = true) :
    '/' ∉ endpoint.toList := by
  simp only [isSafeEndpoint, Bool.and_eq_true, Bool.not_eq_true'] at h
  intro hmem
  have hslash := h.1.1.2
  rw [List.contains_iff_mem.2 hmem] at hslash
  cases hslash

theorem length_pos_of_isSafeEndpoint {endpoint : String} (h : isSafeEndpoint endpoint = true) :
    0 < endpoint.toList.length := by
  simp only [isSafeEndpoint, Bool.and_eq_true, Bool.not_eq_true'] at h
  rw [List.length_pos_iff]
  intro hnil
  have hnonempty := h.1.1.1.1
  rw [hnil] at hnonempty
  cases hnonempty

/-- The characters behind the endpoint in the name of a descriptor. -/
theorem toList_descriptorName (endpoint : String) (media : MediaType) :
    (descriptorName endpoint media).toList =
      endpoint.toList ++ ('.' :: media.extension.toList ++ ['d', 's']) := by
  simp [descriptorName]

/-- The name of a descriptor of a safe endpoint is one part of a path. -/
theorem isSingle_descriptorName {endpoint : String} (h : isSafeEndpoint endpoint = true)
    (media : MediaType) : IsSingleName (descriptorName endpoint media) := by
  have hsuffix : '/' ∉ '.' :: media.extension.toList ++ ['d', 's'] ∧
      3 ≤ ('.' :: media.extension.toList ++ ['d', 's']).length := by
    cases media <;> decide
  -- longer than a step to the parent, whatever the endpoint is
  refine .of_length ?_ ?_
  · rw [toList_descriptorName, List.mem_append, not_or]
    exact ⟨not_mem_of_isSafeEndpoint h, hsuffix.1⟩
  · rw [toList_descriptorName, List.length_append]
    exact Nat.le_trans hsuffix.2 (Nat.le_add_left _ _)

/-- **The name of a descriptor tells what it is for.** -/
theorem descriptorName_inj {endpoint endpoint' : String} {media media' : MediaType}
    (h : descriptorName endpoint media = descriptorName endpoint' media') :
    endpoint = endpoint' ∧ media = media' := by
  have hchars := congrArg String.toList h
  rw [toList_descriptorName, toList_descriptorName] at hchars
  -- read from the end, the names differ at the first letter of the media type
  have hmedia : media = media' := by
    have hreverse := congrArg List.reverse hchars
    cases media <;> cases media' <;> first | rfl | simp [MediaType.extension] at hreverse
  subst hmedia
  exact ⟨String.ext (List.append_cancel_right hchars), rfl⟩

/-! ### Names of static files -/

/-- The name of a static file without the media type. -/
def staticStem (endpoint : String) : Option Tenant → String
  | some t => endpoint ++ ".[" ++ t.key ++ "]"
  | none => endpoint

theorem staticName_eq (endpoint : String) (media : MediaType) (tenant : Option Tenant) :
    staticName endpoint media tenant = staticStem endpoint tenant ++ ("." ++ media.extension) := by
  cases tenant with
  | none => exact String.append_assoc
  | some t =>
    rw [String.ext_iff]
    simp [staticName, staticStem]

theorem MediaType.suffix_spec (media : MediaType) :
    '/' ∉ ("." ++ media.extension).toList ∧ 3 ≤ ("." ++ media.extension).toList.length := by
  cases media <;> decide

/-- The name of a static file is one part of a path, unless the key of the tenant has a slash. -/
theorem isSingle_staticName {endpoint : String} (h : isSafeEndpoint endpoint = true)
    (media : MediaType) {tenant : Option Tenant}
    (hkey : ∀ t, tenant = some t → '/' ∉ t.key.toList) :
    IsSingleName (staticName endpoint media tenant) := by
  obtain ⟨hslash, hlong⟩ := media.suffix_spec
  have hstem : '/' ∉ (staticStem endpoint tenant).toList := by
    cases tenant with
    | none => exact not_mem_of_isSafeEndpoint h
    | some t =>
      simp only [staticStem, String.toList_append, List.mem_append, not_or]
      exact ⟨⟨⟨not_mem_of_isSafeEndpoint h, by decide⟩, hkey t rfl⟩, by decide⟩
  rw [staticName_eq]
  refine .of_length ?_ ?_
  · rw [String.toList_append, List.mem_append, not_or]
    exact ⟨hstem, hslash⟩
  · rw [String.toList_append, List.length_append]
    exact Nat.le_trans hlong (Nat.le_add_left _ _)

/-! ### Files that answer -/

theorem staticArtifact_ne_templated (files : FileTree) (tenant : Option Tenant) (endpoint : String)
    (media : MediaType) (path : FilePath) (t : Tenant) :
    staticArtifact files tenant endpoint media ≠ .templated path t := by
  rw [staticArtifact]
  cases files.find? (staticName endpoint media tenant) <;> intro h <;> cases h

/-- **A descriptor answers** for a tenant, under the name of a safe endpoint. -/
theorem resolveArtifact_eq_templated_iff {files : FileTree} {tenant : Option Tenant}
    {endpoint : String} {media : MediaType} {path : FilePath} {t : Tenant} :
    resolveArtifact files tenant endpoint media = .templated path t ↔
      isSafeEndpoint endpoint = true ∧ tenant = some t ∧
        files.find? (descriptorName endpoint media) = some path := by
  have hstatic := staticArtifact_ne_templated files tenant endpoint media path t
  unfold resolveArtifact
  constructor
  · -- safe, with a tenant, and found: any of the three missing leaves a static artifact or none
    intro h
    by_cases hsafe : isSafeEndpoint endpoint = true
    · rw [if_pos hsafe] at h
      cases tenant with
      | none => exact absurd h hstatic
      | some t' =>
        cases hfind : files.find? (descriptorName endpoint media) with
        | none => exact absurd (by simpa only [hfind] using h) hstatic
        | some path' =>
          simp only [hfind, Artifact.templated.injEq] at h
          obtain ⟨rfl, rfl⟩ := h
          exact ⟨hsafe, rfl, rfl⟩
    · rw [if_neg hsafe] at h
      cases h
  · rintro ⟨hsafe, rfl, hfind⟩
    rw [if_pos hsafe]
    simp only [hfind]

/-- A static file that answers has been found under its name. -/
theorem find?_of_resolveArtifact_eq_static {files : FileTree} {tenant : Option Tenant}
    {endpoint : String} {media : MediaType} {path : FilePath}
    (h : resolveArtifact files tenant endpoint media = .static path) :
    isSafeEndpoint endpoint = true ∧
      files.find? (staticName endpoint media tenant) = some path := by
  -- the static artifact is the file found under its name
  have hstatic : staticArtifact files tenant endpoint media = .static path →
      files.find? (staticName endpoint media tenant) = some path := by
    intro h
    rw [staticArtifact] at h
    split at h
    next path' hfind =>
      obtain rfl := Artifact.static.inj h
      exact hfind
    · cases h
  -- it answers where there is no tenant, or no descriptor for one
  unfold resolveArtifact at h
  split at h
  next hsafe =>
    refine ⟨hsafe, hstatic ?_⟩
    split at h
    · split at h
      · cases h
      · exact h
    · exact h
  · cases h

end QueryGateway
