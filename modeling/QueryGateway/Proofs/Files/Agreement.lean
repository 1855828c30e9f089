import QueryGateway.Proofs.Artifact.Resolution

/-!
# File systems that agree but for some files

A path leads to a file if the file system admits the path, which is a matter of the directories on
the way, and a file stands at the place of the path (`lookup_eq_file_iff`). A walk looks at more
than that: it takes a step to the parent only from a directory that is there, and it goes no further
than a file. So the two parts of the condition are kept apart. What is admitted depends on
directories alone (`isOpen_mono`), and the place depends on the root and the parts alone, not on
what stands anywhere.

That is what makes comparing possible. Two file systems that have one root and differ only in files
at some places (`FileTree.AgreesBut`) admit the same paths, and have the same file under every name
that leads elsewhere (`AgreesBut.sameUnder`). Names may lead out of the root; nothing here asks them
not to.

Which place a name leads to shows in its end: what stands behind the last slash is the last name of
the place (`FilePath.parts_of_append`), wherever the steps before it have led.
-/

namespace QueryGateway

open Text

/-! ### The end of a name -/

/-- An end that is no step of its own belongs to the last name. -/
theorem FilePath.filterMap_part?_append {cs : List Char} {suffix : String}
    {init : List (List Char)} {last : List Char} (hslash : '/' ∉ suffix.toList)
    (hlong : 3 ≤ suffix.toList.length) (hsplit : splitChars '/' cs = init ++ [last]) :
    ((splitChars '/' (cs ++ suffix.toList)).map String.ofList).filterMap part? =
      (init.map String.ofList).filterMap part? ++ [.name (String.ofList last ++ suffix)] := by
  -- with three characters behind it the last piece is neither empty nor a step
  have hpart : part? (String.ofList last ++ suffix) =
      some (.name (String.ofList last ++ suffix)) := by
    refine part?_of_length ?_
    rw [String.toList_append, List.length_append]
    exact Nat.le_trans hlong (Nat.le_add_left _ _)
  rw [splitChars_append hslash hsplit, List.map_append, List.filterMap_append, List.map_cons,
    String.ofList_append, String.ofList_toList, List.map_nil, List.filterMap_cons, hpart,
    List.filterMap_nil]

/-- **The path of a name with an end** that is no step of its own: the end belongs to the last name
of the path. -/
theorem FilePath.parts_of_append {stem suffix : String} {path : FilePath}
    (hslash : '/' ∉ suffix.toList) (hlong : 3 ≤ suffix.toList.length)
    (h : FilePath.ofText? (stem ++ suffix) = some path) :
    ∃ init last, String.toList last <:+ stem.toList ∧
      path.parts = init ++ [.name (last ++ suffix)] := by
  -- the pieces before the last are those of the stem
  obtain ⟨init, last, hsplit, hlast⟩ := exists_splitChars_concat '/' stem.toList
  refine ⟨(init.map String.ofList).filterMap part?, String.ofList last, ?_, ?_⟩
  · rw [String.toList_ofList]
    exact hlast
  · rw [parts_of_ofText? h, split, String.toList_append]
    exact filterMap_part?_append hslash hlong hsplit

namespace FileTree

theorem place_nil (root : List String) : place root [] = root :=
  List.reverse_reverse root

/-- **A last name is the last name of the place,** wherever the parts before it lead. -/
theorem place_concat (root : List String) (init : List PathPart) (s : String) :
    place root (init ++ [.name s]) = place root init ++ [s] := by
  simp [place, step]

/-! ### Paths that lead to files -/

/-- Whether parts lead from a place over directories alone. The place is held in reverse. -/
def isOpen (t : FileTree) : List String → List PathPart → Bool
  | _, [] => true
  | here, part :: rest =>
    t.entry? here.reverse = some .directory &&
      match part with
      | .parent => isOpen t (step here .parent) rest
      | .name s => (nameError? s).isNone && isOpen t (step here (.name s)) rest

/-- **Whether a path leads to a file,** once a file stands at its place. It depends on the
directories alone, so files may come and go. -/
def admits (t : FileTree) (p : FilePath) : Bool :=
  !(p.parts.any fun part => '\x00' ∈ (FilePath.partText part).toList) &&
    t.rootSize + p.size ≤ longestPath && !p.mustBeDirectory && t.isOpen t.root.reverse p.parts

variable {t f g : FileTree} {p : FilePath} {content : Octets}

/-- A walk comes to a file exactly if the way is open and the file stands where the parts lead. -/
theorem walk_eq_file_iff (t : FileTree) (content : Octets) (here : List String)
    (parts : List PathPart) :
    t.walk here parts = .ok (.file content) ↔
      t.isOpen here parts = true ∧
        t.entry? (parts.foldl step here).reverse = some (.file content) := by
  -- the walk, the condition and the place go on from the same step, so one induction does
  induction parts generalizing here with
  | nil => cases hentry : t.entry? here.reverse <;> simp [walk, isOpen, hentry]
  | cons part rest ih =>
    cases hentry : t.entry? here.reverse with
    | none => simp [walk, isOpen, hentry]
    | some e =>
      cases e with
      | file c => simp [walk, isOpen, hentry]
      | directory =>
        cases part with
        | name s => cases hname : nameError? s <;> simp [walk, isOpen, hentry, hname, ih]
        | parent => simp [walk, isOpen, hentry, ih]

/-- **A path leads to a file** exactly if it is admitted and the file stands at its place. -/
theorem lookup_eq_file_iff :
    t.lookup p = .ok (.file content) ↔
      t.admits p = true ∧ t.entry? (place t.root p.parts) = some (.file content) := by
  have hwalk := t.walk_eq_file_iff content t.root.reverse p.parts
  rw [lookup, admits]
  -- a name that no path has, and a path that is too long, fail before the walk
  split
  · next hname => simp [hname]
  split
  · next hname hsize => simp [Nat.not_le_of_lt hsize]
  · next hname hsize =>
    rw [Bool.not_eq_true] at hname
    simp only [hname, Nat.not_lt.1 hsize, decide_true, Bool.not_false, Bool.true_and,
      Bool.and_eq_true, Bool.not_eq_true', place, and_assoc, ← hwalk]
    -- only a file is refused to a path that asks for a directory
    cases hmust : p.mustBeDirectory <;> split <;> simp_all

/-- A path leads to a file exactly if it is admitted and some file stands at its place. -/
theorem isFile_eq_true_iff :
    t.isFile p = true ↔
      t.admits p = true ∧ ∃ content, t.entry? (place t.root p.parts) = some (.file content) := by
  rw [← exists_and_left]
  simp only [← lookup_eq_file_iff]
  rw [isFile]
  split
  · next content h => simp [h]
  · next h => simpa using h

theorem read_of_entry? (h : t.admits p = true)
    (hentry : t.entry? (place t.root p.parts) = some (.file content)) : t.read p = .ok content := by
  rw [read, lookup_eq_file_iff.2 ⟨h, hentry⟩]

theorem isFile_of_find? {name : String} (h : t.find? name = some p) : t.isFile p = true :=
  (Option.filter_eq_some_iff.1 h).2

/-! ### File systems that differ in files -/

/-- **File systems that agree but for files** at some places. What differs is a file on one side
or on both, never a directory, so the ways that paths take are the same. -/
structure AgreesBut (f g : FileTree) (P : List String → Prop) : Prop where
  root_eq : f.root = g.root
  rootSize_eq : f.rootSize = g.rootSize
  entries : ∀ place, f.entry? place = g.entry? place ∨
    P place ∧ f.entry? place ≠ some .directory ∧ g.entry? place ≠ some .directory

variable {P : List String → Prop}

theorem AgreesBut.refl (f : FileTree) (P : List String → Prop) : f.AgreesBut f P :=
  ⟨rfl, rfl, fun _ => .inl rfl⟩

theorem AgreesBut.symm (h : f.AgreesBut g P) : g.AgreesBut f P where
  root_eq := h.root_eq.symm
  rootSize_eq := h.rootSize_eq.symm
  entries place := (h.entries place).imp Eq.symm fun ⟨hP, hf, hg⟩ => ⟨hP, hg, hf⟩

theorem AgreesBut.entry?_eq (h : f.AgreesBut g P) {place : List String} (hP : ¬ P place) :
    f.entry? place = g.entry? place :=
  (h.entries place).resolve_right fun hdiffer => hP hdiffer.1

theorem AgreesBut.directory (h : f.AgreesBut g P) {place : List String}
    (hf : f.entry? place = some .directory) : g.entry? place = some .directory := by
  rcases h.entries place with heq | ⟨-, hnot, -⟩
  · rw [← heq, hf]
  · exact absurd hf hnot

/-- **Only directories open the way.** Files may come and go. -/
theorem isOpen_mono (h : ∀ place, f.entry? place = some .directory →
    g.entry? place = some .directory) {here : List String} {parts : List PathPart}
    (hopen : f.isOpen here parts = true) : g.isOpen here parts = true := by
  -- each step asks for a directory at the place it leaves, and g has it too
  induction parts generalizing here with
  | nil => rfl
  | cons part rest ih =>
    cases part with
    | name s =>
      simp only [isOpen, Bool.and_eq_true, decide_eq_true_iff] at hopen ⊢
      exact ⟨h _ hopen.1, hopen.2.1, ih hopen.2.2⟩
    | parent =>
      simp only [isOpen, Bool.and_eq_true, decide_eq_true_iff] at hopen ⊢
      exact ⟨h _ hopen.1, ih hopen.2⟩

/-- **File systems that agree so admit the same paths.** -/
theorem AgreesBut.admits (h : f.AgreesBut g P) (hp : f.admits p = true) : g.admits p = true := by
  rw [FileTree.admits, Bool.and_eq_true] at hp ⊢
  rw [← h.root_eq, ← h.rootSize_eq]
  exact ⟨hp.1, isOpen_mono (fun _ => h.directory) hp.2⟩

theorem AgreesBut.isFile_eq (h : f.AgreesBut g P) (hP : ¬ P (place f.root p.parts)) :
    f.isFile p = g.isFile p := by
  rw [Bool.eq_iff_iff, isFile_eq_true_iff, isFile_eq_true_iff, ← h.root_eq, h.entry?_eq hP]
  exact and_congr_left fun _ => ⟨h.admits, h.symm.admits⟩

/-- **File systems that have the same file under a name,** or none under it. This is all that the
program asks of its files: whether there is one, and its text. -/
structure SameUnder (f g : FileTree) (name : String) : Prop where
  find?_eq : f.find? name = g.find? name
  readText_eq : ∀ p, f.find? name = some p → f.readText p = g.readText p

/-- **Names that lead elsewhere** lead to the same. -/
theorem AgreesBut.sameUnder (h : f.AgreesBut g P) {name : String}
    (hname : ∀ p, FilePath.ofText? name = some p → ¬ P (place f.root p.parts)) :
    f.SameUnder g name := by
  refine ⟨?_, ?_⟩
  · -- found: both trees look at one path, and agree on whether a file is there
    rw [find?, find?]
    cases hp : FilePath.ofText? name with
    | none => rfl
    | some p => rw [Option.filter_some, Option.filter_some, h.isFile_eq (hname p hp)]
  · -- what is found is admitted on both sides, and the same octets stand at its place
    intro p hp
    obtain ⟨hpath, hfile⟩ := Option.filter_eq_some_iff.1 hp
    obtain ⟨hadmits, content, hentry⟩ := isFile_eq_true_iff.1 hfile
    have hentry' : g.entry? (place g.root p.parts) = some (.file content) := by
      rw [← h.root_eq, ← h.entry?_eq (hname p hpath), hentry]
    rw [readText, readText, read_of_entry? hadmits hentry,
      read_of_entry? (h.admits hadmits) hentry']

theorem find?_eq_none_of_not_isFile {name : String} (hp : FilePath.ofText? name = some p)
    (hfile : t.isFile p = false) : t.find? name = none := by
  rw [find?, hp, Option.filter_some, hfile, if_neg Bool.false_ne_true]

theorem sameUnder_of_not_isFile {name : String} (hp : FilePath.ofText? name = some p)
    (hf : f.isFile p = false) (hg : g.isFile p = false) : f.SameUnder g name := by
  have hnone := find?_eq_none_of_not_isFile hp hf
  have hnone' := find?_eq_none_of_not_isFile hp hg
  exact ⟨hnone.trans hnone'.symm, fun p h => by cases hnone.symm.trans h⟩

theorem AgreesBut.hasRoot_eq (h : f.AgreesBut g P) : f.hasRoot = g.hasRoot := by
  rw [hasRoot, hasRoot, decide_eq_decide, ← h.root_eq]
  exact ⟨h.directory, h.symm.directory⟩

/-- The file system with a file where a path leads, whatever was there before. -/
def put (t : FileTree) (p : FilePath) (content : Octets) : FileTree :=
  t.set (place t.root p.parts) (.file content)

theorem entry?_put_self (t : FileTree) (p : FilePath) (content : Octets) :
    FileTree.entry? (t.put p content) (place t.root p.parts) = some (.file content) :=
  if_pos rfl

/-- A file may be put where no directory is, and nothing else differs. -/
theorem agreesBut_put (hP : P (place t.root p.parts))
    (hplace : t.entry? (place t.root p.parts) ≠ some .directory) (content : Octets) :
    t.AgreesBut (t.put p content) P := by
  refine ⟨rfl, rfl, fun other => ?_⟩
  -- the place itself has the file now, and every other place what it had
  by_cases hother : other = place t.root p.parts
  · subst hother
    refine .inr ⟨hP, hplace, ?_⟩
    rw [entry?_put_self]
    exact nofun
  · exact .inl (if_neg hother).symm

end FileTree

end QueryGateway
