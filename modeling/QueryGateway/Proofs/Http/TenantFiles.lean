import QueryGateway.Proofs.Http.StaticFiles
import QueryGateway.Proofs.Settings.Acceptance

/-!
# Who sees the files of a tenant

A tenant's static files have its key in brackets in their names. `Tenant.OwnsPlace` says which
places such names lead to from the root. Descriptors are never there, because their names end in
another letter (`Tenant.not_ownsPlace_of_descriptor`), so file systems that differ in files of a
tenant alone make a difference to requests for static files at most, and to no question and no entry
of the cache (`answer_progress_eq`).

Nothing keeps the name of one static file from leading to the place of another. The brackets may
come from the endpoint as well as from the key; and a key may have slashes and steps to the parent
in it, so the name of another tenant's file may lead out of the root, come back by the root's own
name and end where this tenant's file is. So privacy cannot be had by comparing names: a request
`Reaches` a file of a tenant if the name of the static file that it is for leads to a place of the
tenant, on whatever way. `tenant_files_private_iff` says that the response of a request does not
depend on a tenant's files exactly if it reaches none of them. One that does gets the text of the
file, and it comes without a tenant and names an endpoint with the key in brackets, or from a tenant
whose key overlaps with that one.
-/

namespace QueryGateway

open Text FileTree

/-! ### Places and names -/

/-- **The places of a tenant's files:** those that names with its key lead to from a root. -/
def Tenant.OwnsPlace (t : Tenant) (root place : List String) : Prop :=
  ∃ endpoint media path, FilePath.ofText? (staticName endpoint media (some t)) = some path ∧
    FileTree.place root path.parts = place

/-- **File systems that agree but for files of a tenant.** They have one root, so the places are the
same on both sides. -/
def FileTree.AgreesButFor (f g : FileTree) (t : Tenant) : Prop :=
  f.AgreesBut g (t.OwnsPlace f.root)

/-- What stands before the media type is told by the name. -/
theorem MediaType.stem_inj {a b : String} {media media' : MediaType}
    (h : a ++ ("." ++ media.extension) = b ++ ("." ++ media'.extension)) : a = b := by
  have hchars := congrArg (fun name : String => name.toList.reverse) h
  cases media <;> cases media' <;> simp [MediaType.extension] at hchars
  · exact String.ext hchars
  · exact String.ext hchars

/-- The place of a static file ends in a name with the media type, also if its name leads out of the
root: what comes last in the name is no step to a parent. -/
theorem exists_place_of_staticName (root : List String) {endpoint : String} {media : MediaType}
    {tenant : Option Tenant} {path : FilePath}
    (h : FilePath.ofText? (staticName endpoint media tenant) = some path) :
    ∃ init last, String.toList last <:+ (staticStem endpoint tenant).toList ∧
      place root path.parts = init ++ [last ++ ("." ++ media.extension)] := by
  rw [staticName_eq] at h
  obtain ⟨hslash, hlong⟩ := media.suffix_spec
  -- the last part of the name holds the whole suffix, since that has no slash
  obtain ⟨init, last, hlast, hparts⟩ := FilePath.parts_of_append hslash hlong h
  refine ⟨place root init, last, hlast, ?_⟩
  rw [hparts, place_concat]

/-- A key without slashes is part of the name that the place ends in. -/
theorem Tenant.OwnsPlace.exists_key {t : Tenant} {root place : List String}
    (h : t.OwnsPlace root place) (hkey : '/' ∉ t.key.toList) : ∃ init last media,
      place = init ++ [last ++ (".[" ++ t.key ++ "]") ++ ("." ++ MediaType.extension media)] := by
  obtain ⟨endpoint, media, path, hpath, rfl⟩ := h
  -- here the suffix is the key in its brackets, with the media type behind it
  have hname : staticName endpoint media (some t) =
      endpoint ++ (".[" ++ t.key ++ "]" ++ ("." ++ media.extension)) := by
    rw [String.ext_iff]
    simp [staticName]
  obtain ⟨hslash, hlong⟩ := media.suffix_spec
  have hslash' : '/' ∉ (".[" ++ t.key ++ "]" ++ ("." ++ media.extension)).toList := by
    simp only [String.toList_append, List.mem_append, not_or] at hslash ⊢
    exact ⟨⟨⟨by decide, hkey⟩, by decide⟩, hslash⟩
  have hlong' : 3 ≤ (".[" ++ t.key ++ "]" ++ ("." ++ media.extension)).toList.length := by
    rw [String.toList_append, List.length_append]
    omega
  rw [hname] at hpath
  obtain ⟨init, last, -, hparts⟩ := FilePath.parts_of_append hslash' hlong' hpath
  -- the root and the steps before the last part decide where the file is, and the last part is its
  -- name
  refine ⟨FileTree.place root init, last, media, ?_⟩
  rw [hparts, place_concat]
  exact congrArg (fun name => FileTree.place root init ++ [name]) String.append_assoc.symm

theorem last_eq_of_concat_eq {init init' : List String} {last last' : String}
    (h : init ++ [last] = init' ++ [last']) : last = last' :=
  List.head_eq_of_cons_eq (List.append_inj' h rfl).2

/-- **Names of descriptors lead elsewhere.** -/
theorem Tenant.not_ownsPlace_of_descriptor {t : Tenant} {root : List String}
    {stem suffix : String} {path : FilePath} (hslash : '/' ∉ suffix.toList)
    (hlong : 3 ≤ suffix.toList.length)
    (hs : suffix.toList.getLast? = some 's')
    (h : FilePath.ofText? (stem ++ suffix) = some path) :
    ¬ t.OwnsPlace root (place root path.parts) := by
  rintro ⟨endpoint, media, path', hpath', hplace⟩
  obtain ⟨init, last, -, hparts⟩ := FilePath.parts_of_append hslash hlong h
  obtain ⟨init', last', -, hparts'⟩ := exists_place_of_staticName root hpath'
  rw [hplace, hparts, place_concat] at hparts'
  -- the names end in different letters
  have hend := congrArg (fun name : String => name.toList.getLast?) (last_eq_of_concat_eq hparts')
  simp only [String.toList_append, List.getLast?_append, hs, Option.some_or] at hend
  cases media <;> exact absurd hend (by simp [MediaType.extension])

/-- Trees that differ in static files of one tenant have the same descriptors: the names of these
end in another letter, so none of them leads to such a file, out of the root and back in or
otherwise. -/
theorem Http.SameDescriptors.of_agreesBut {f g : FileTree} {t : Tenant}
    (h : f.AgreesButFor g t) : SameDescriptors f g := by
  -- each of the four kinds of descriptors has a suffix without slashes that ends in an s
  have hname : ∀ stem suffix : String, '/' ∉ suffix.toList → 3 ≤ suffix.toList.length →
      suffix.toList.getLast? = some 's' → f.SameUnder g (stem ++ suffix) :=
    fun stem suffix hslash hlong hs =>
      h.sameUnder fun _ => Tenant.not_ownsPlace_of_descriptor hslash hlong hs
  refine ⟨h.hasRoot_eq, ?_, ?_, ?_, ?_⟩
  · exact hname "dbdatabases" ".sqlds" (by decide) (by decide) (by decide)
  · exact hname "dbobjects" ".jsonds" (by decide) (by decide) (by decide)
  · exact hname "dbobject" ".jsonds" (by decide) (by decide) (by decide)
  · intro endpoint media _
    have heq : descriptorName endpoint media = endpoint ++ ("." ++ media.extension ++ "ds") := by
      rw [String.ext_iff]
      simp [descriptorName]
    rw [heq]
    cases media <;> exact hname _ _ (by decide) (by decide) (by decide)

/-! ### Requests that reach a tenant's file -/

variable {site : Site} {files : FileTree} {r : Http.Request} {t : Tenant} {endpoint : String}
  {path : FilePath}

namespace Http

/-- **A request reaches a file of a tenant** if it is for a static file, and the path of that file
leads to a place of the tenant where a file stands or may stand. -/
structure Request.Reaches (r : Request) (site : Site) (t : Tenant) (endpoint : String)
    (path : FilePath) : Prop where
  isForStatic : r.IsForStatic site endpoint
  ofText?_eq : FilePath.ofText? (r.staticName site endpoint) = some path
  owns : t.OwnsPlace site.files.root (place site.files.root path.parts)
  admits : site.files.admits path = true
  ne_directory : site.files.entry? (place site.files.root path.parts) ≠ some .directory

theorem Request.staticName_withFiles (r : Request) (site : Site) (files : FileTree)
    (endpoint : String) : r.staticName { site with files } endpoint = r.staticName site endpoint :=
  rfl

theorem Request.IsForStatic.withFiles (h : r.IsForStatic site endpoint)
    (hsame : SameDescriptors site.files files) :
    r.IsForStatic { site with files } endpoint where
  route := h.route
  endpoint?_eq := h.endpoint?_eq
  isSafe := h.isSafe
  undescribed :=
    h.undescribed.imp_right
      ((hsame.endpoint endpoint r.accepted.preferred h.isSafe).find?_eq.symm.trans ·)

/-- **A request that does not reach a file of the tenant** finds the same static file. -/
theorem sameUnder_of_not_reaches (hagree : site.files.AgreesButFor files t)
    (hstatic : r.IsForStatic site endpoint) (hnot : ∀ path, ¬ r.Reaches site t endpoint path) :
    site.files.SameUnder files (r.staticName site endpoint) := by
  by_cases howns : ∃ path, FilePath.ofText? (r.staticName site endpoint) = some path ∧
      t.OwnsPlace site.files.root (place site.files.root path.parts)
  · obtain ⟨path, hpath, howns⟩ := howns
    -- a file there, in either tree, would make the request reach it
    have hnofile : ∀ f : FileTree, site.files.AgreesButFor f t → f.isFile path = false := by
      intro f hf
      rw [Bool.eq_false_iff]
      intro hfile
      obtain ⟨hadmits, content, hentry⟩ := isFile_eq_true_iff.1 hfile
      refine hnot path ⟨hstatic, hpath, howns, hf.symm.admits hadmits, fun hdirectory => ?_⟩
      rw [← hf.root_eq, hf.directory hdirectory] at hentry
      cases hentry
    exact sameUnder_of_not_isFile hpath (hnofile site.files (.refl _ _))
      (hnofile files hagree)
  · -- the name leads to no file of the tenant, so both trees have the same there
    exact hagree.sameUnder fun path hpath hplace => howns ⟨path, hpath, hplace⟩

/-- **What a request that reaches a file gets** is the text of that file, whatever it is. -/
theorem Request.Reaches.answer_eq (h : r.Reaches site t endpoint path) (p : Progress)
    {content : Octets} {text : String} (htext : Utf8.decode? content = some text) :
    answer { site with files := site.files.put path content } p r =
      (responseOf (contentResponse r.accepted.preferred text endpoint), p) := by
  -- writing the file changes no other place, and the place it stands in is reached through the root
  have hagree := agreesBut_put h.owns h.ne_directory content
  have hadmits := hagree.admits h.admits
  have hentry := entry?_put_self site.files path content
  have hfile := isFile_eq_true_iff.2 ⟨hadmits, content, hentry⟩
  -- the file is found under the name, and reading it gives the text
  have hfind : (site.files.put path content).find?
      (r.staticName site endpoint) = some path :=
    Option.filter_eq_some_iff.2 ⟨h.ofText?_eq, hfile⟩
  have hread : (site.files.put path content).readText path = .ok text := by
    simp only [readText, read_of_entry? hadmits hentry, htext]
  rw [answer_of_isForStatic (h.isForStatic.withFiles (.of_agreesBut hagree)) p,
    Request.staticName_withFiles, staticOutcome_eq hfind hread]

/-- **No question and no cache** depends on files of a tenant. -/
theorem answer_progress_eq (hagree : site.files.AgreesButFor files t) (p : Progress) :
    (answer { site with files } p r).2 = (answer site p r).2 := by
  have hsame := SameDescriptors.of_agreesBut hagree
  by_cases hstatic : ∃ endpoint, r.IsForStatic site endpoint
  · obtain ⟨endpoint, hstatic⟩ := hstatic
    rw [answer_of_isForStatic hstatic, answer_of_isForStatic (hstatic.withFiles hsame)]
  · rw [answer_alike hsame (not_exists.1 hstatic)]

/-- **A request that reaches no file of the tenant** is answered the same. -/
theorem answer_eq_of_not_reaches (hagree : site.files.AgreesButFor files t)
    (hnot : ∀ endpoint path, ¬ r.Reaches site t endpoint path) (p : Progress) :
    (answer { site with files } p r).1 = (answer site p r).1 := by
  have hsame := SameDescriptors.of_agreesBut hagree
  -- for a static file the same is found; for anything else the descriptors decide
  by_cases hstatic : ∃ endpoint, r.IsForStatic site endpoint
  · obtain ⟨endpoint, hstatic⟩ := hstatic
    have hname := sameUnder_of_not_reaches hagree hstatic (hnot endpoint)
    rw [answer_of_isForStatic hstatic, answer_of_isForStatic (hstatic.withFiles hsame),
      Request.staticName_withFiles, staticOutcome_congr hname]
  · rw [answer_alike hsame (not_exists.1 hstatic)]

/-- **A request that reaches a file** can tell contents of it apart. -/
theorem Request.Reaches.not_private (h : r.Reaches site t endpoint path) (p : Progress)
    (hall : ∀ files, site.files.AgreesButFor files t →
      (answer { site with files } p r).1 = (answer site p r).1) : False := by
  -- two contents make two responses, and one of them is not the present one
  have hsees : ∀ content text, Utf8.decode? content = some text →
      (answer site p r).1 = responseOf (contentResponse r.accepted.preferred text endpoint) := by
    intro content text htext
    rw [← hall _ (agreesBut_put h.owns h.ne_directory content), h.answer_eq p htext]
  have hbody := congrArg Response.body
    ((hsees [0x61] "a" (by decide +kernel)).symm.trans (hsees [0x62] "b" (by decide +kernel)))
  simp [contentResponse, responseOf, show isAllBlank "a" = false by decide,
    show isAllBlank "b" = false by decide] at hbody

end Http

/-! ### Which requests reach -/

/-- **Keys behind an opening bracket** at the end of one text overlap, unless they are one key. -/
theorem overlap_of_append_eq {key key' stem stem' : List Char} (hne : key' ≠ key)
    (h : stem ++ '.' :: '[' :: key' = stem' ++ '.' :: '[' :: key) :
    '.' :: '[' :: key' <:+ key ∨ '.' :: '[' :: key <:+ key' := by
  -- one bracketed key ends the other, and then ends the key in it
  have hproper : ∀ {key key' : List Char}, key' ≠ key →
      '.' :: '[' :: key' <:+ '.' :: '[' :: key → '.' :: '[' :: key' <:+ key := by
    intro key key' hne hsuffix
    -- the shorter one cannot begin at the point or at the bracket
    rcases List.suffix_cons_iff.1 hsuffix with heq | hsuffix
    · exact absurd (by simpa using heq) hne
    rcases List.suffix_cons_iff.1 hsuffix with heq | hsuffix
    · simp at heq
    · exact hsuffix
  -- both end one text, so the shorter of them ends the longer
  have hkey' : '.' :: '[' :: key' <:+ stem ++ '.' :: '[' :: key' := List.suffix_append _ _
  have hkey : '.' :: '[' :: key <:+ stem ++ '.' :: '[' :: key' := h ▸ List.suffix_append _ _
  exact (List.suffix_or_suffix_of_suffix hkey' hkey).imp (hproper hne) (hproper hne.symm)

namespace Http

/-- **Brackets in the endpoint** make the name of a file of the tenant, whatever its key. -/
theorem Request.reaches_of_brackets {stem : String}
    (hstatic : r.IsForStatic site (stem ++ ".[" ++ t.key ++ "]")) (hnone : tenant? site r = none)
    (hpath : FilePath.ofText? (r.staticName site (stem ++ ".[" ++ t.key ++ "]")) = some path)
    (hadmits : site.files.admits path = true)
    (hplace : site.files.entry? (place site.files.root path.parts) ≠ some .directory) :
    r.Reaches site t (stem ++ ".[" ++ t.key ++ "]") path := by
  refine ⟨hstatic, hpath, ⟨stem, r.accepted.preferred, path, ?_, rfl⟩, hadmits, hplace⟩
  rw [Request.staticName, hnone, staticName_eq] at hpath
  rw [staticName_eq]
  exact hpath

/-- **What a request has to name** to reach a file of a tenant whose key has no slash. -/
theorem Request.Reaches.staticStem_eq (h : r.Reaches site t endpoint path)
    (hkey : '/' ∉ t.key.toList) :
    ∃ stem, staticStem endpoint (tenant? site r) = stem ++ ".[" ++ t.key ++ "]" := by
  -- the place ends in a name, which the request's name gives, and the tenant's as well
  have hpath : FilePath.ofText? (QueryGateway.staticName endpoint r.accepted.preferred
      (tenant? site r)) = some path := h.ofText?_eq
  obtain ⟨init, last, hlast, hplace⟩ := exists_place_of_staticName site.files.root hpath
  obtain ⟨init', last', media, hplace'⟩ := h.owns.exists_key hkey
  rw [hplace] at hplace'
  obtain rfl := MediaType.stem_inj (last_eq_of_concat_eq hplace')
  -- what the place ends in is the end of the name
  obtain ⟨before, hstem⟩ := hlast
  refine ⟨String.ofList before ++ last', ?_⟩
  rw [String.ext_iff, ← hstem]
  simp

theorem Request.Reaches.overlap (h : r.Reaches site t endpoint path) {t' : Tenant}
    (ht' : tenant? site r = some t') (hne : t'.key ≠ t.key) (hkey : '/' ∉ t.key.toList) :
    (".[" ++ t'.key).toList <:+ t.key.toList ∨ (".[" ++ t.key).toList <:+ t'.key.toList := by
  obtain ⟨stem, hstem⟩ := h.staticStem_eq hkey
  have hchars : endpoint.toList ++ '.' :: '[' :: t'.key.toList ++ [']'] =
      stem.toList ++ '.' :: '[' :: t.key.toList ++ [']'] := by
    simpa [ht', staticStem] using congrArg String.toList hstem
  -- the closing brackets go, and the keys stand at the end
  simpa using overlap_of_append_eq (fun heq => hne (String.ext heq))
    (List.append_cancel_right hchars)

theorem mem_tenants_of_tenant? (h : tenant? site r = some t) : t ∈ site.registry.tenants := by
  obtain ⟨name, -, hfind⟩ := Option.bind_eq_some_iff.1 h
  rw [TenantRegistry.find?] at hfind
  split at hfind
  · cases hfind
  · exact List.mem_of_find?_eq_some hfind

end Http

/-! ### Privacy -/

open Http

/-- **The files of a tenant are private but to requests that reach them.** For accepted settings, a
tenant and a request that is not the tenant's own: whatever files of the tenant stand in the root,
the request asks the same and leaves the same cache; its response is the same as well exactly if it
reaches no file of the tenant; and one that reaches a file gets its text. If the key has no slash,
such a request names the key in brackets, or its own tenant has a key that overlaps with it. -/
theorem tenant_files_private_iff {text : String} {s : Settings} (h : Settings.parse text = .ok s)
    {t : Tenant} (ht : t ∈ (TenantRegistry.ofSettings s).tenants) {site : Site}
    (hsite : site.registry = .ofSettings s) (p : Progress) {r : Request}
    (hother : tenant? site r ≠ some t) :
    (∀ files, site.files.AgreesButFor files t →
      (answer { site with files } p r).2 = (answer site p r).2) ∧
    ((∀ files, site.files.AgreesButFor files t →
        (answer { site with files } p r).1 = (answer site p r).1) ↔
      ∀ endpoint path, ¬ r.Reaches site t endpoint path) ∧
    ∀ endpoint path, r.Reaches site t endpoint path →
      (∀ content text, Utf8.decode? content = some text →
        (answer { site with files := site.files.put path content } p r).1 =
          responseOf (contentResponse r.accepted.preferred text endpoint)) ∧
      ('/' ∉ t.key.toList →
        (tenant? site r = none ∧ ∃ stem, endpoint = stem ++ ".[" ++ t.key ++ "]") ∨
        ∃ t', tenant? site r = some t' ∧
          ((".[" ++ t'.key).toList <:+ t.key.toList ∨
            (".[" ++ t.key).toList <:+ t'.key.toList)) := by
  -- the three clauses: what is asked and kept, when the response is private, and what reaching gets
  refine ⟨fun files hagree => answer_progress_eq hagree p, ⟨?_, ?_⟩, ?_⟩
  · intro hall endpoint path hreaches
    exact hreaches.not_private p hall
  · intro hnot files hagree
    exact answer_eq_of_not_reaches hagree hnot p
  · intro endpoint path hreaches
    refine ⟨fun content text htext => congrArg Prod.fst (hreaches.answer_eq p htext), ?_⟩
    intro hkey
    -- who reaches a file without a tenant has the key in the endpoint, and else in its own tenant's
    -- key
    cases ht' : tenant? site r with
    | none =>
      obtain ⟨stem, hstem⟩ := hreaches.staticStem_eq hkey
      rw [ht', staticStem] at hstem
      exact .inl ⟨rfl, stem, hstem⟩
    | some t' =>
      refine .inr ⟨t', rfl, hreaches.overlap ht' ?_ hkey⟩
      -- two tenants of one key are one tenant, and this one is another
      intro hkeys
      have hmem := mem_tenants_of_tenant? ht'
      rw [hsite] at hmem
      obtain rfl := List.inj_on_of_nodup_map (Settings.isAccepted_of_parse h).tenants_nodup
        hmem ht hkeys
      exact hother ht'

/-! ### An endpoint with a key in brackets -/

def devContext : String :=
  "\x7b\"contexts\": \x7b\"dev\": \x7b\x7d\x7d\x7d"

/-- What the settings say. -/
def devSettings : Settings where
  contexts := [("dev", {})]

def devTenant : Tenant := ⟨"dev", "", "", []⟩

/-- A runner that has no rows. -/
def idleRunner : Runner := ⟨fun _ _ => .ok [], fun _ _ => .ok []⟩

/-- A site with an empty root. -/
def devSite : Site := ⟨.ofSettings devSettings, .empty, idleRunner⟩

/-- A request without a context, for an endpoint with the key in brackets. -/
def bracketRequest : Request :=
  ⟨"GET", .parse "/api/widgets.%5Bdev%5D", []⟩

/-- The path of the tenant's own file for the endpoint `widgets`. -/
def devPath : FilePath := ⟨[.name "widgets.[dev].json"], false, 18⟩

theorem bracketRequest_reaches :
    bracketRequest.Reaches devSite devTenant "widgets.[dev]" devPath := by
  have hstatic : bracketRequest.IsForStatic devSite ("widgets" ++ ".[" ++ devTenant.key ++ "]") :=
    ⟨by decide +kernel, by decide +kernel, by decide +kernel, .inl (by decide +kernel)⟩
  exact Request.reaches_of_brackets hstatic (by decide +kernel) (by decide +kernel)
    (by decide +kernel) (by decide +kernel)

/-- **Without a context, the tenant's file is served:** once it is written, its text comes in the
place of a refusal. -/
theorem tenant_files_private_iff_bracketed :
    Settings.parse devContext = .ok devSettings ∧
      devTenant ∈ (TenantRegistry.ofSettings devSettings).tenants ∧
      tenant? devSite bracketRequest = none ∧
      let p : Progress := { cache := { isEnabled := true } }
      (answer devSite p bracketRequest).1.status = 404 ∧
      (answer { devSite with
          files := devSite.files.put devPath [0x31] } p bracketRequest).1 =
        { status := 200, contentType := some "application/json", body := "1" } ∧
      ¬ ∀ files, devSite.files.AgreesButFor files devTenant →
        (answer { devSite with files } p bracketRequest).1 =
          (answer devSite p bracketRequest).1 := by
  have h : Settings.parse devContext = .ok devSettings :=
    except_eq_ok_of_toOption (by decide +kernel)
  have ht : devTenant ∈ (TenantRegistry.ofSettings devSettings).tenants := by decide +kernel
  have hnone : tenant? devSite bracketRequest = none := by decide +kernel
  have hother : tenant? devSite bracketRequest ≠ some devTenant := by
    rw [hnone]
    exact nofun
  have hsite : devSite.registry = .ofSettings devSettings := rfl
  -- the general theorem says what the response is, and that it depends on the file
  obtain ⟨-, hprivate, hreached⟩ := tenant_files_private_iff h ht hsite
    { cache := { isEnabled := true } } hother
  refine ⟨h, ht, hnone, by decide +kernel, ?_, fun hall => ?_⟩
  · exact (hreached _ _ bracketRequest_reaches).1 [0x31] "1" (by decide +kernel)
  · exact hprivate.1 hall _ _ bracketRequest_reaches

/-! ### A key that leads out of the root and back -/

/-- Settings with a second context, whose name leads out of the root and back in. -/
def roundaboutContexts : String :=
  "\x7b\"contexts\": \x7b\"dev\": \x7b\x7d, \"x/../../sources/widgets.[dev\": \x7b\x7d\x7d\x7d"

/-- What the settings say. -/
def roundaboutSettings : Settings where
  contexts := [("dev", {}), ("x/../../sources/widgets.[dev", {})]

/-- A site with the file of the tenant `dev`, and a directory for the other name to pass. -/
def roundaboutSite : Site :=
  ⟨.ofSettings roundaboutSettings,
    (FileTree.empty.write ⟨[.name "w.[x"], true, 0⟩ []).write devPath [0x31], idleRunner⟩

/-- A request under the second context. -/
def roundaboutRequest : Request :=
  ⟨"GET", .parse "/api/w?ctx=x/../../sources/widgets.%5Bdev", []⟩

example :
    (Settings.parse roundaboutContexts).toOption = some roundaboutSettings ∧
      (tenant? roundaboutSite roundaboutRequest).map Tenant.key =
        some "x/../../sources/widgets.[dev" ∧
      (answer roundaboutSite { cache := { isEnabled := true } } roundaboutRequest).1 =
        { status := 200, contentType := some "application/json", body := "1" } := by
  decide +kernel

end QueryGateway
