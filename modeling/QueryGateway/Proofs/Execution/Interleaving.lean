import Mathlib.Data.List.Induction
import QueryGateway.Proofs.Command.Compilation
import QueryGateway.Proofs.Execution.Entries

/-!
# Loads that run side by side

Loading a descriptor takes three steps: looking for the entry, reading and compiling the file, and
keeping what came out. Between the steps of one load there is room for the steps of others, and for
changes to the files. A `World` has a cache, files and loads that have come so far, an `Event` is
one step of one of them or a change, and `World.after?` is the world after events in any order that
the loads allow. A load that has the cache to itself takes its steps in a row, and comes to what
`DescriptorCache.load` does at once (`load_eq_after?`).

`loads_agree` is what holds in every world that events lead to. In an enabled cache

* an entry stays as it is and where it is, whatever comes later;
* an entry is what some load made of the content that its file had when it was read (`Made`);
* a load that has returned handed out the entry of its path, so loads of one path handed out one
  descriptor, even if they missed side by side and read different contents.

In a cache that is off no entry comes about, and every load returns what it made of the content that
it read itself. Whether the cache is on or off, no step of a load that fails changes the cache. One
descriptor means one compilation and not only equal content, since no two reads make descriptors of
one number (`MadeAfter.unique`).

All but the last two is one invariant, `Consistent`, which every step preserves
(`Consistent.step`). What failing loads leave looks ahead: a load that has changed the cache is
through with its file (`World.IsThrough`), and stays so, so it does not fail any more.
-/

namespace QueryGateway.Interleaving

/-! ### Loads and their steps -/

/-- **How far a load has come.** Between two stages other loads may take any number of steps, and
files may change. -/
inductive Stage where
  -- it found no entry, and has still to read the file
  | missed
  -- it has read the file, and has still to keep what came of it
  | compiled (shared : SharedDescriptor)
  | returned (shared : SharedDescriptor)
  | failed (e : GatewayError)
deriving DecidableEq

/-- A load of the descriptor at a path. -/
structure Load where
  path : FilePath
  stage : Stage
deriving DecidableEq

/-- **What loads share,** and the loads themselves by number. A number that stands for no load yet
is free for one that begins. -/
structure World where
  cache : DescriptorCache
  files : FileTree
  load? : Nat → Option Load

/-- **What may happen next:** a step of a load, or a change to the files. -/
inductive Event where
  -- a new load looks for an entry
  | look (i : Nat) (path : FilePath)
  -- a load that missed reads and compiles the file
  | read (i : Nat)
  -- a load that compiled keeps the descriptor, or takes the entry that has come up meanwhile
  | keep (i : Nat)
  | write (path : FilePath) (content : Octets)
  | remove (path : FilePath)

/-- The load whose step an event is, if any. -/
def Event.load? : Event → Option Nat
  | .look i _ | .read i | .keep i => some i
  | .write _ _ | .remove _ => none

namespace World

/-- The world before any load. -/
def start (isEnabled : Bool) (files : FileTree) : World :=
  ⟨{ isEnabled }, files, fun _ => none⟩

/-- The world with a load that has come to a stage. -/
def setLoad (w : World) (i : Nat) (path : FilePath) (stage : Stage) : World :=
  { w with load? := fun j => if j = i then some ⟨path, stage⟩ else w.load? j }

/-- Looking for an entry, under the lock for reading. A load that finds one is through with it. -/
def look (w : World) (i : Nat) (path : FilePath) : World :=
  match w.cache.lookup? path with
  | some kept => w.setLoad i path (.returned kept)
  | none => w.setLoad i path .missed

/-- Reading and compiling a file, with no lock held. What is compiled gets a number of its own at
once, before it is known whether it will be kept. -/
def read (w : World) (i : Nat) (path : FilePath) : World :=
  match compileFile w.files path with
  | .error e => w.setLoad i path (.failed e)
  | .ok d =>
    let (shared, cache) := w.cache.share d
    { w.setLoad i path (.compiled shared) with cache }

/-- Keeping a descriptor, under the lock for writing. Another load may have kept one since the look,
and then that one is handed out. -/
def keep (w : World) (i : Nat) (path : FilePath) (shared : SharedDescriptor) : World :=
  let (shared, cache) := w.cache.keep path shared
  { w.setLoad i path (.returned shared) with cache }

/-- **The world after an event,** unless the load that it is about is not at that step. -/
def next? (w : World) : Event → Option World
  | .look i path =>
    -- every load has a number of its own
    match w.load? i with
    | none => some (w.look i path)
    | some _ => none
  | .read i =>
    match w.load? i with
    | some ⟨path, .missed⟩ => some (w.read i path)
    | _ => none
  | .keep i =>
    match w.load? i with
    | some ⟨path, .compiled shared⟩ => some (w.keep i path shared)
    | _ => none
  -- files may change at any time
  | .write path content => some { w with files := w.files.write path content }
  | .remove path => some { w with files := w.files.remove path }

/-- **The world after events,** one after the other. Events that are out of turn lead nowhere, so a
run consists of steps that loads can take. -/
def after? (w : World) : List Event → Option World
  | [] => some w
  | event :: rest => (w.next? event).bind (·.after? rest)

@[simp] theorem setLoad_load?_self (w : World) (i : Nat) (path : FilePath) (stage : Stage) :
    (w.setLoad i path stage).load? i = some ⟨path, stage⟩ :=
  if_pos rfl

theorem setLoad_load?_of_ne (w : World) {i j : Nat} (h : j ≠ i) (path : FilePath) (stage : Stage) :
    (w.setLoad i path stage).load? j = w.load? j :=
  if_neg h

/-- A load is where it was, or it is the one that has moved. -/
theorem load?_of_setLoad {w : World} {i j : Nat} {path : FilePath} {stage : Stage} {l : Load}
    (h : (w.setLoad i path stage).load? j = some l) :
    w.load? j = some l ∨ j = i ∧ ⟨path, stage⟩ = l := by
  by_cases hji : j = i
  · subst hji
    rw [setLoad_load?_self] at h
    exact .inr ⟨rfl, Option.some.inj h⟩
  · rw [setLoad_load?_of_ne w hji] at h
    exact .inl h

theorem next?_look {w : World} {i : Nat} (h : w.load? i = none) (path : FilePath) :
    w.next? (.look i path) = some (w.look i path) := by
  rw [next?, h]

theorem next?_read {w : World} {i : Nat} {path : FilePath} (h : w.load? i = some ⟨path, .missed⟩) :
    w.next? (.read i) = some (w.read i path) := by
  rw [next?, h]

theorem next?_keep {w : World} {i : Nat} {path : FilePath} {shared : SharedDescriptor}
    (h : w.load? i = some ⟨path, .compiled shared⟩) :
    w.next? (.keep i) = some (w.keep i path shared) := by
  rw [next?, h]

theorem after?_cons {w w' : World} {event : Event} (h : w.next? event = some w')
    (rest : List Event) : w.after? (event :: rest) = w'.after? rest := by
  rw [after?, h, Option.bind_some]

theorem after?_append (w : World) (es es' : List Event) :
    w.after? (es ++ es') = (w.after? es).bind (·.after? es') := by
  induction es generalizing w with
  | nil => rfl
  | cons event rest ih =>
    rw [List.cons_append, after?, after?]
    cases w.next? event with
    | none => rfl
    | some w' => exact ih w'

end World

/-! ### Taking a step apart -/

/-- **The steps,** with all that may happen in each. Invariants are proved over these cases and not
over the functions that compute them. -/
inductive Step (w : World) : Event → World → Prop where
  -- the entry is there, and the load is done
  | hit {i path kept} (hnew : w.load? i = none) (h : w.cache.lookup? path = some kept) :
    Step w (.look i path) (w.setLoad i path (.returned kept))
  | miss {i path} (hnew : w.load? i = none) (h : w.cache.lookup? path = none) :
    Step w (.look i path) (w.setLoad i path .missed)
  -- the file cannot be read, or not compiled
  | fail {i path e} (hat : w.load? i = some ⟨path, .missed⟩)
      (h : compileFile w.files path = .error e) :
    Step w (.read i) (w.setLoad i path (.failed e))
  | compile {i path d} (hat : w.load? i = some ⟨path, .missed⟩)
      (h : compileFile w.files path = .ok d) :
    Step w (.read i)
      { w.setLoad i path (.compiled (w.cache.share d).1) with cache := (w.cache.share d).2 }
  | keep {i path shared} (hat : w.load? i = some ⟨path, .compiled shared⟩) :
    Step w (.keep i)
      { w.setLoad i path (.returned (w.cache.keep path shared).1) with
        cache := (w.cache.keep path shared).2 }
  | change {event} (h : event.load? = none) (files : FileTree) : Step w event { w with files }

/-- The steps that are computed are those of the relation: an event that goes through is one of its
constructors, with what the computation asked for as the hypotheses. -/
theorem step_of_next? {w w' : World} {event : Event} (h : w.next? event = some w') :
    Step w event w' := by
  cases event with
  | look i path =>
    rw [World.next?] at h
    split at h
    · next hnew =>
      obtain rfl := Option.some.inj h
      rw [World.look]
      -- what the cache has of the path decides between the two outcomes of a look
      cases hfound : w.cache.lookup? path with
      | some kept => exact .hit hnew hfound
      | none => exact .miss hnew hfound
    · cases h
  | read i =>
    rw [World.next?] at h
    split at h
    · next path hat =>
      obtain rfl := Option.some.inj h
      rw [World.read]
      -- the file is read now, whatever it said when the load began
      cases hfile : compileFile w.files path with
      | error e => exact .fail hat hfile
      | ok d => exact .compile hat hfile
    · cases h
  | keep i =>
    rw [World.next?] at h
    split at h
    · next path shared hat =>
      obtain rfl := Option.some.inj h
      exact .keep hat
    · cases h
  -- a file changes under the loads, which moves none of them on
  | write path content =>
    obtain rfl := Option.some.inj h
    exact .change rfl _
  | remove path =>
    obtain rfl := Option.some.inj h
    exact .change rfl _

/-- **What every step preserves holds after every run:** the events so far may be spoken of. -/
theorem induction_of_after? {start w : World} {es : List Event} {P : List Event → World → Prop}
    (hstart : P [] start)
    (hstep : ∀ before w event w', start.after? before = some w → P before w →
      Step w event w' → P (before ++ [event]) w')
    (h : start.after? es = some w) : P es w := by
  -- from the end, so that what came before the last step is a run itself
  induction es using List.reverseRecOn generalizing w with
  | nil =>
    obtain rfl := Option.some.inj h
    exact hstart
  -- the run splits into the one before and the last event
  | append_singleton before event ih =>
    rw [World.after?_append, Option.bind_eq_some_iff] at h
    obtain ⟨w₁, hbefore, hlast⟩ := h
    rw [World.after?, Option.bind_eq_some_iff] at hlast
    obtain ⟨w₂, hnext, hdone⟩ := hlast
    obtain rfl := Option.some.inj hdone
    exact hstep before w₁ event w₂ hbefore (ih hbefore) (step_of_next? hnext)

theorem Step.extends {w w' : World} {event : Event} (h : Step w event w') :
    w.cache.Extends w'.cache := by
  cases h with
  | hit hnew h => exact .refl _
  | miss hnew h => exact .refl _
  | fail hat h => exact .refl _
  | @compile i path d hat h => exact w.cache.share_extends d
  | @keep i path shared hat => exact w.cache.keep_extends path shared
  | change h files => exact .refl _

theorem extends_of_after? {w w' : World} {es : List Event} (h : w.after? es = some w') :
    w.cache.Extends w'.cache :=
  induction_of_after? (P := fun _ v => w.cache.Extends v.cache) (.refl _)
    (fun _ _ _ _ _ hsofar hstep => hsofar.trans hstep.extends) h

/-! ### Where descriptors come from -/

/-- **A load made a descriptor** after the events before, of the content that its file had then. -/
def MadeAfter (start : World) (before : List Event) (i : Nat) (path : FilePath)
    (shared : SharedDescriptor) : Prop :=
  ∃ w source d, start.after? before = some w ∧ w.load? i = some ⟨path, .missed⟩ ∧
    w.files.readText path = .ok source ∧ CommandDescriptor.compile source = .ok d ∧
    shared = (w.cache.share d).1

/-- **A load made a descriptor** when it came to read, at some point of the events. -/
def Made (start : World) (es : List Event) (i : Nat) (path : FilePath)
    (shared : SharedDescriptor) : Prop :=
  ∃ before, before ++ [.read i] <+: es ∧ MadeAfter start before i path shared

variable {start w w' : World} {es before before' : List Event} {event : Event} {i j : Nat}
  {path path' : FilePath} {shared shared' : SharedDescriptor}

theorem Made.append (h : Made start es i path shared) (later : List Event) :
    Made start (es ++ later) i path shared := by
  obtain ⟨before, hwithin, hmade⟩ := h
  exact ⟨before, hwithin.trans (List.prefix_append _ _), hmade⟩

theorem compileFile_eq_ok_iff {files : FileTree} {d : CommandDescriptor} :
    compileFile files path = .ok d ↔
      ∃ source, files.readText path = .ok source ∧ CommandDescriptor.compile source = .ok d := by
  rw [compileFile]
  cases files.readText path with
  | error e => simp
  | ok source => cases h : CommandDescriptor.compile source <;> simp [Except.mapError, h]

theorem MadeAfter.exists_after? (h : MadeAfter start before i path shared) :
    ∃ w, start.after? before = some w := by
  obtain ⟨w, source, d, hrun, -⟩ := h
  exact ⟨w, hrun⟩

theorem MadeAfter.serial_eq (h : MadeAfter start before i path shared)
    (hrun : start.after? before = some w) : shared.serial = w.cache.compilations := by
  obtain ⟨w', source, d, hrun', -, -, -, rfl⟩ := h
  obtain rfl : w' = w := Option.some.inj (hrun'.symm.trans hrun)
  rfl

theorem MadeAfter.serial_lt (h : MadeAfter start before i path shared)
    (hwithin : before ++ [.read i] <+: es) (hrun : start.after? es = some w) :
    shared.serial < w.cache.compilations := by
  obtain ⟨w', source, d, hbefore, hat, hread, hcompile, rfl⟩ := h
  obtain ⟨later, rfl⟩ := hwithin
  have hfile := compileFile_eq_ok_iff.2 ⟨source, hread, hcompile⟩
  rw [World.after?_append, World.after?_append, hbefore, Option.bind_some, World.after?,
    World.next?] at hrun
  simp only [hat, World.read, hfile, Option.bind_some, World.after?] at hrun
  -- the read has counted its compilation, and counts only grow from there
  exact (extends_of_after? hrun).compilations

/-- **A descriptor tells which read made it,** for every compilation has a number of its own. -/
theorem MadeAfter.unique (h : MadeAfter start before i path shared)
    (h' : MadeAfter start before' j path' shared) (hwithin : before ++ [.read i] <+: es)
    (hwithin' : before' ++ [.read j] <+: es) : before = before' ∧ i = j := by
  obtain ⟨w, hrun⟩ := h.exists_after?
  obtain ⟨w', hrun'⟩ := h'.exists_after?
  -- the earlier of two reads has used up the number before the later one comes
  rcases List.prefix_or_prefix_of_prefix hwithin hwithin' with hle | hle
  · rcases List.prefix_concat_iff.1 hle with heq | hlt
    · simpa using heq
    · exact absurd (h'.serial_eq hrun') (Nat.ne_of_lt (h.serial_lt hlt hrun'))
  · rcases List.prefix_concat_iff.1 hle with heq | hlt
    · simpa [eq_comm] using heq
    · exact absurd (h.serial_eq hrun) (Nat.ne_of_lt (h'.serial_lt hlt hrun))

/-! ### The invariant -/

/-- **What a load that has returned handed out:** the entry of its path, or in a cache that is off
what it made itself. -/
def HandedOut (start : World) (es : List Event) (cache : DescriptorCache) (i : Nat)
    (path : FilePath) (shared : SharedDescriptor) : Prop :=
  if cache.isEnabled then cache.lookup? path = some shared else Made start es i path shared

/-- **What events keep true:** where the entries and the descriptors of loads come from. Each is
traced to a read of its file, in a world that the events have passed through. -/
structure Consistent (start : World) (es : List Event) (w : World) : Prop where
  hasOneEach : w.cache.HasOneEach
  entries_eq_nil : w.cache.isEnabled = false → w.cache.entries = []
  entries : ∀ parts shared, (parts, shared) ∈ w.cache.entries →
    ∃ i path, path.parts = parts ∧ Made start es i path shared
  compiled : ∀ i path shared, w.load? i = some ⟨path, .compiled shared⟩ →
    Made start es i path shared
  returned : ∀ i path shared, w.load? i = some ⟨path, .returned shared⟩ →
    HandedOut start es w.cache i path shared

theorem Consistent.of_start (isEnabled : Bool) (files : FileTree) :
    Consistent (.start isEnabled files) [] (.start isEnabled files) := by
  refine ⟨List.nodup_nil, fun _ => rfl, ?_, ?_, ?_⟩
  · intro parts shared h
    cases h
  · intro i path shared h
    cases h
  · intro i path shared h
    cases h

/-- What was handed out stays so: the cache only gets entries, and what is made after some events is
made after more. -/
theorem HandedOut.mono {cache cache' : DescriptorCache}
    (h : HandedOut start es cache i path shared) (hone : cache.HasOneEach)
    (hextends : cache.Extends cache') (later : List Event) :
    HandedOut start (es ++ later) cache' i path shared := by
  -- an enabled cache hands out its entry, and one that is off what the load made
  rw [HandedOut] at h ⊢
  rw [hextends.isEnabled]
  split at h
  · next hon =>
    rw [if_pos hon]
    exact hextends.lookup?_eq_some hone h
  · next hoff =>
    rw [if_neg hoff]
    exact h.append later

/-- **One load moves on,** and brings no entry but one that it made. The other loads and the entries
that are there keep what they have. -/
theorem Consistent.setLoad (h : Consistent start es w) {stage : Stage} {cache : DescriptorCache}
    (hextends : w.cache.Extends cache)
    (hentries : ∀ entry ∈ cache.entries, entry ∈ w.cache.entries ∨
      w.cache.isEnabled = true ∧ entry.1 = path.parts ∧ Made start es i path entry.2)
    (hcompiled : ∀ shared, stage = .compiled shared → Made start (es ++ [event]) i path shared)
    (hreturned : ∀ shared, stage = .returned shared →
      HandedOut start (es ++ [event]) cache i path shared) :
    Consistent start (es ++ [event]) { w.setLoad i path stage with cache } := by
  -- the five clauses of the invariant, in its order
  refine ⟨hextends.hasOneEach h.hasOneEach, ?_, ?_, ?_, ?_⟩
  · -- what is added needs a cache that is on
    intro hoff
    replace hoff : w.cache.isEnabled = false := hextends.isEnabled.symm.trans hoff
    rw [List.eq_nil_iff_forall_not_mem]
    intro entry hentry
    rcases hentries entry hentry with hold | ⟨hon, -, -⟩
    · rw [h.entries_eq_nil hoff] at hold
      cases hold
    · rw [hon] at hoff
      cases hoff
  · -- an entry is an old one with its history, or the new one with the load that made it
    intro parts shared hentry
    rcases hentries _ hentry with hold | ⟨-, hparts, hmade⟩
    · obtain ⟨j, path', hparts, hmade⟩ := h.entries parts shared hold
      exact ⟨j, path', hparts, hmade.append _⟩
    · exact ⟨i, path, hparts.symm, hmade.append _⟩
  · -- a load that holds a compiled descriptor is another one, or the one that moved
    intro j path' shared hat
    rcases World.load?_of_setLoad hat with hold | ⟨rfl, hload⟩
    · exact (h.compiled j path' shared hold).append _
    · obtain ⟨rfl, rfl⟩ := Load.mk.inj hload
      exact hcompiled shared rfl
  · -- the same for a load that is through
    intro j path' shared hat
    rcases World.load?_of_setLoad hat with hold | ⟨rfl, hload⟩
    · exact (h.returned j path' shared hold).mono h.hasOneEach hextends _
    · obtain ⟨rfl, rfl⟩ := Load.mk.inj hload
      exact hreturned shared rfl

/-- **Every step keeps it true.** -/
theorem Consistent.step (h : Consistent start es w) (hrun : start.after? es = some w)
    (hstep : Step w event w') : Consistent start (es ++ [event]) w' := by
  cases hstep with
  | @hit i path kept hnew hfound =>
    -- an entry is handed out as it is found, and only a cache that is on has any
    refine h.setLoad (.refl _) (fun _ => .inl) nofun ?_
    intro shared hstage
    obtain rfl := Stage.returned.inj hstage
    rw [HandedOut, if_pos (DescriptorCache.isEnabled_of_lookup? hfound)]
    exact hfound
  -- nothing is found, so nothing is held and nothing kept
  | @miss i path hnew hmissed =>
    exact h.setLoad (.refl _) (fun _ => .inl) nofun nofun
  -- a read that fails leaves the cache as it is
  | @fail i path e hat hfile =>
    exact h.setLoad (.refl _) (fun _ => .inl) nofun nofun
  | @compile i path d hat hfile =>
    refine h.setLoad (w.cache.share_extends d) (fun _ => .inl) ?_ nofun
    -- this is the read that the descriptor comes from
    intro shared hstage
    obtain rfl := Stage.compiled.inj hstage
    obtain ⟨source, hread, hcompile⟩ := compileFile_eq_ok_iff.1 hfile
    exact ⟨es, List.prefix_rfl, w, source, d, hrun, hat, hread, hcompile, rfl⟩
  -- what is kept was compiled by this load, and the cache takes it only if no entry is there
  | @keep i path shared hat =>
    have hmade := h.compiled i path shared hat
    have hextends := w.cache.keep_extends path shared
    refine h.setLoad hextends ?_ nofun ?_
    · intro entry hentry
      refine (DescriptorCache.mem_entries_keep hentry).imp_right ?_
      rintro ⟨hon, rfl⟩
      exact ⟨hon, rfl, hmade⟩
    · -- the load may have been overtaken, but what it hands out is the entry either way
      intro kept hstage
      obtain rfl := Stage.returned.inj hstage
      rw [HandedOut, hextends.isEnabled]
      split
      · next hon => exact DescriptorCache.lookup?_keep hon h.hasOneEach path shared
      · next hoff =>
        rw [DescriptorCache.keep_of_off (eq_false_of_ne_true hoff)]
        exact hmade.append _
  -- the files are no part of the invariant but for the reads, which are in the past
  | change hfiles files =>
    refine ⟨h.hasOneEach, h.entries_eq_nil, ?_, ?_, ?_⟩
    · intro parts shared hentry
      obtain ⟨i, path, hparts, hmade⟩ := h.entries parts shared hentry
      exact ⟨i, path, hparts, hmade.append _⟩
    · intro i path shared hat
      exact (h.compiled i path shared hat).append _
    · intro i path shared hat
      exact (h.returned i path shared hat).mono h.hasOneEach (.refl _) _

theorem consistent_of_after? {isEnabled : Bool} {files : FileTree}
    (h : (World.start isEnabled files).after? es = some w) :
    Consistent (.start isEnabled files) es w :=
  induction_of_after? (.of_start isEnabled files)
    (fun _ _ _ _ hrun hsofar hstep => hsofar.step hrun hstep) h

theorem Consistent.mem_entries (h : Consistent start es w) (hon : w.cache.isEnabled = true)
    (hat : w.load? i = some ⟨path, .returned shared⟩) : (path.parts, shared) ∈ w.cache.entries := by
  have hhanded := h.returned i path shared hat
  rw [HandedOut, if_pos hon] at hhanded
  exact (DescriptorCache.lookup?_eq_some_iff hon h.hasOneEach).1 hhanded

/-- **Loads of one path have returned one descriptor:** both have the one entry. -/
theorem Consistent.returned_unique (h : Consistent start es w) (hon : w.cache.isEnabled = true)
    (hi : w.load? i = some ⟨path, .returned shared⟩)
    (hj : w.load? j = some ⟨path', .returned shared'⟩) (hparts : path.parts = path'.parts) :
    shared = shared' := by
  have hone := List.inj_on_of_nodup_map h.hasOneEach (h.mem_entries hon hi) (h.mem_entries hon hj)
    hparts
  exact congrArg Prod.snd hone

/-! ### Loads that fail -/

/-- **A load is through with its file** once it has a descriptor, its own or one that was kept. -/
def World.IsThrough (w : World) (i : Nat) : Prop :=
  ∃ path shared, w.load? i = some ⟨path, .compiled shared⟩ ∨
    w.load? i = some ⟨path, .returned shared⟩

theorem World.isThrough_of_setLoad {stage : Stage} {cache : DescriptorCache}
    (hstage : stage = .compiled shared ∨ stage = .returned shared) :
    { w.setLoad i path stage with cache }.IsThrough i := by
  refine ⟨path, shared, ?_⟩
  rcases hstage with rfl | rfl
  · exact .inl (w.setLoad_load?_self i path _)
  · exact .inr (w.setLoad_load?_self i path _)

theorem World.IsThrough.setLoad (h : w.IsThrough j) {stage : Stage} {cache : DescriptorCache}
    (hji : j ≠ i) : { w.setLoad i path stage with cache }.IsThrough j := by
  obtain ⟨path', shared, hat⟩ := h
  refine ⟨path', shared, ?_⟩
  change (w.setLoad i path stage).load? j = _ ∨ (w.setLoad i path stage).load? j = _
  rw [w.setLoad_load?_of_ne hji]
  exact hat

theorem World.IsThrough.ne_of_load? (h : w.IsThrough j)
    (hat : w.load? i = none ∨ ∃ path, w.load? i = some ⟨path, .missed⟩) : j ≠ i := by
  rintro rfl
  obtain ⟨path', shared, hthrough⟩ := h
  rcases hat with hat | ⟨path, hat⟩ <;> simp [hat] at hthrough

/-- A load that is through stays so. -/
theorem Step.isThrough (h : Step w event w') (hthrough : w.IsThrough j) : w'.IsThrough j := by
  -- a load that looks or reads is not through before, so it is another one
  cases h with
  | hit hnew hfound => exact hthrough.setLoad (hthrough.ne_of_load? (.inl hnew))
  | miss hnew hmissed => exact hthrough.setLoad (hthrough.ne_of_load? (.inl hnew))
  | fail hat hfile => exact hthrough.setLoad (hthrough.ne_of_load? (.inr ⟨_, hat⟩))
  | compile hat hfile => exact hthrough.setLoad (hthrough.ne_of_load? (.inr ⟨_, hat⟩))
  | change hfiles files => exact hthrough
  | @keep i path shared hat =>
    -- here it may be the load itself, which goes on to its end
    by_cases hji : j = i
    · subst hji
      exact World.isThrough_of_setLoad (.inr rfl)
    · exact hthrough.setLoad hji

theorem isThrough_of_after? (h : w.after? es = some w') (hthrough : w.IsThrough i) :
    w'.IsThrough i :=
  induction_of_after? (P := fun _ v => v.IsThrough i) hthrough
    (fun _ _ _ _ _ hsofar hstep => hstep.isThrough hsofar) h

/-- **Only a load that gets through** changes the cache. -/
theorem Step.cache_eq (h : Step w event w') (hload : event.load? = some i)
    (hnot : ¬ w'.IsThrough i) : w'.cache = w.cache := by
  -- a look and a failing read leave the cache; the two steps that do not bring the load through
  cases h with
  | hit hnew hfound => rfl
  | miss hnew hmissed => rfl
  | fail hat hfile => rfl
  | change hfiles files => rfl
  | compile hat hfile =>
    obtain rfl := Option.some.inj hload
    exact absurd (World.isThrough_of_setLoad (.inl rfl)) hnot
  | keep hat =>
    obtain rfl := Option.some.inj hload
    exact absurd (World.isThrough_of_setLoad (.inr rfl)) hnot

/-- **No step of a load that fails** changes the cache. -/
theorem cache_eq_of_failed {w₁ w₂ : World} {after : List Event} {e : GatewayError}
    (hrun : start.after? (before ++ event :: after) = some w)
    (hfailed : w.load? i = some ⟨path, .failed e⟩) (hload : event.load? = some i)
    (hbefore : start.after? before = some w₁) (hnext : w₁.next? event = some w₂) :
    w₂.cache = w₁.cache := by
  rw [World.after?_append, hbefore, Option.bind_some, World.after?_cons hnext] at hrun
  refine (step_of_next? hnext).cache_eq hload fun hthrough => ?_
  -- what is through by now is not what fails in the end
  obtain ⟨path', shared, hat⟩ := isThrough_of_after? hrun hthrough
  simp [hfailed] at hat

/-! ### Loads one at a time, and side by side -/

/-- The stage at which a load ends, by its result. -/
def Stage.ofResult : Except GatewayError SharedDescriptor → Stage
  | .ok shared => .returned shared
  | .error e => .failed e

/-- **A load that is alone** takes its steps in a row and comes to what the cache does at once. -/
theorem load_eq_after? (hnew : w.load? i = none) (path : FilePath) :
    ∃ es w', (∀ event ∈ es, event.load? = some i) ∧ w.after? es = some w' ∧ w'.files = w.files ∧
      w'.cache = (w.cache.load w.files path).2 ∧
      w'.load? i = some ⟨path, .ofResult (w.cache.load w.files path).1⟩ := by
  have hlook := World.next?_look hnew path
  -- an entry: the load is through after its look
  cases hfound : w.cache.lookup? path with
  | some kept =>
    refine ⟨[.look i path], w.look i path, by simp [Event.load?], World.after?_cons hlook [], ?_⟩
    simp [World.look, World.setLoad, DescriptorCache.load, hfound, Stage.ofResult]
  | none =>
    have hmissed : w.look i path = w.setLoad i path .missed := by rw [World.look, hfound]
    have hread := World.next?_read (w.setLoad_load?_self i path .missed)
    rw [← hmissed] at hread
    -- no entry: the file is read, and the load fails or has one more step
    cases hfile : compileFile w.files path with
    | error e =>
      refine ⟨[.look i path, .read i], (w.look i path).read i path, by simp [Event.load?], ?_, ?_⟩
      · rw [World.after?_cons hlook, World.after?_cons hread, World.after?]
      · simp [hmissed, World.read, World.setLoad, DescriptorCache.load, hfound, hfile,
          Stage.ofResult]
    | ok d =>
      have hcompiled : ((w.look i path).read i path).load? i =
          some ⟨path, .compiled (w.cache.share d).1⟩ := by
        simp [hmissed, World.read, World.setLoad, hfile]
      have hkeep := World.next?_keep hcompiled
      refine ⟨[.look i path, .read i, .keep i],
        ((w.look i path).read i path).keep i path (w.cache.share d).1,
        by simp [Event.load?], ?_, ?_⟩
      · rw [World.after?_cons hlook, World.after?_cons hread, World.after?_cons hkeep, World.after?]
      · simp [hmissed, World.read, World.keep, World.setLoad, DescriptorCache.load, hfound, hfile,
          Stage.ofResult]

/-- **No load waits for another:** one that has not come to its end can always take a step. -/
theorem exists_next? {l : Load} (h : w.load? i = some l) :
    (∃ result, l.stage = .ofResult result) ∨
      ∃ event w', event.load? = some i ∧ w.next? event = some w' := by
  obtain ⟨path, stage⟩ := l
  cases stage with
  | missed => exact .inr ⟨.read i, _, rfl, World.next?_read h⟩
  | compiled shared => exact .inr ⟨.keep i, _, rfl, World.next?_keep h⟩
  | returned shared => exact .inl ⟨.ok shared, rfl⟩
  | failed e => exact .inl ⟨.error e, rfl⟩

/-- **Loads that interleave share one descriptor for each path.** In every world that events lead
to, the entries of an enabled cache are for good, are each what a load made of a content that its
file had when it was read, and are what all loads handed out; a cache that is off has none, and
loads hand out what they made themselves; no step of a load that fails changes the cache; and a
descriptor is of one read, so that loads with one descriptor share what was compiled once. -/
theorem loads_agree {isEnabled : Bool} {files : FileTree} {es : List Event} {w : World}
    (hrun : (World.start isEnabled files).after? es = some w) :
    (isEnabled = true →
      w.cache.HasOneEach ∧
      (∀ later w', w.after? later = some w' → w.cache.entries <+: w'.cache.entries) ∧
      (∀ parts shared, (parts, shared) ∈ w.cache.entries →
        ∃ i path, path.parts = parts ∧ Made (.start isEnabled files) es i path shared) ∧
      (∀ i path shared, w.load? i = some ⟨path, .returned shared⟩ →
        (path.parts, shared) ∈ w.cache.entries) ∧
      (∀ i j path path' shared shared', w.load? i = some ⟨path, .returned shared⟩ →
        w.load? j = some ⟨path', .returned shared'⟩ → path.parts = path'.parts →
        shared = shared')) ∧
    (isEnabled = false →
      w.cache.entries = [] ∧
      (∀ i path shared, w.load? i = some ⟨path, .compiled shared⟩ →
        ∃ w', w.next? (.keep i) = some w' ∧ w'.load? i = some ⟨path, .returned shared⟩) ∧
      ∀ i path shared, w.load? i = some ⟨path, .returned shared⟩ →
        Made (.start isEnabled files) es i path shared) ∧
    (∀ i path e, w.load? i = some ⟨path, .failed e⟩ →
      ∀ before event after w₁ w₂, es = before ++ event :: after → event.load? = some i →
        (World.start isEnabled files).after? before = some w₁ → w₁.next? event = some w₂ →
        w₂.cache = w₁.cache) ∧
    (∀ before before' i j path path' shared, before ++ [.read i] <+: es →
      before' ++ [.read j] <+: es → MadeAfter (.start isEnabled files) before i path shared →
      MadeAfter (.start isEnabled files) before' j path' shared → before = before' ∧ i = j) := by
  have hinv := consistent_of_after? hrun
  -- the mode is that of the start, as no event changes it
  have hmode : w.cache.isEnabled = isEnabled := (extends_of_after? hrun).isEnabled
  refine ⟨?_, ?_, ?_, ?_⟩
  · -- enabled: the entries are for good, and every load hands one out
    rintro rfl
    refine ⟨hinv.hasOneEach, fun later w' hlater => (extends_of_after? hlater).entries,
      hinv.entries, fun i path shared => hinv.mem_entries hmode, ?_⟩
    intro i j path path' shared shared' hi hj hparts
    exact hinv.returned_unique hmode hi hj hparts
  · -- off: there is no entry, and a load returns what it has made
    rintro rfl
    refine ⟨hinv.entries_eq_nil hmode, ?_, ?_⟩
    · intro i path shared hat
      refine ⟨_, World.next?_keep hat, ?_⟩
      rw [World.keep, DescriptorCache.keep_of_off hmode]
      exact w.setLoad_load?_self i path (.returned shared)
    · intro i path shared hat
      have hhanded := hinv.returned i path shared hat
      rw [HandedOut, hmode] at hhanded
      exact hhanded
  · rintro i path e hfailed before event after w₁ w₂ rfl hload hbefore hnext
    exact cache_eq_of_failed hrun hfailed hload hbefore hnext
  · -- a descriptor carries the number of its compilation, so one descriptor is of one read
    intro before before' i j path path' shared hwithin hwithin' hmade hmade'
    exact hmade.unique hmade' hwithin hwithin'

/-! ### Two loads that miss side by side -/

def changingPath : FilePath := ⟨[.name "a.jsonds"], false, 8⟩

def absentPath : FilePath := ⟨[.name "b.jsonds"], false, 8⟩

def commandSource (text : String) : Octets :=
  Text.Utf8.encode ("<Command><CommandText>" ++ text ++ "</CommandText></Command>")

/-- What the first of two loads reads is out of date when the second reads, which is the first to
keep its own. A third load reads a file that is not there. -/
def race : List Event :=
  [.look 1 changingPath, .look 2 changingPath, .look 3 absentPath, .read 1,
    .write changingPath (commandSource "CALL g()"), .read 2, .keep 2, .keep 1, .read 3]

def raceLoser : SharedDescriptor := ⟨0, ⟨30, .text, "CALL f()", []⟩⟩

def raceWinner : SharedDescriptor := ⟨1, ⟨30, .text, "CALL g()", []⟩⟩

def raceFiles : FileTree :=
  FileTree.empty.write changingPath (commandSource "CALL f()")

def raceLoads (w : World) : List (Option Load) :=
  [w.load? 1, w.load? 2, w.load? 3]

/-- **All loads of the path return what the second made,** for it was the first to keep it. In a
cache that is off each of the two returns its own. -/
theorem loads_agree_race :
    (∃ w, (World.start true raceFiles).after? race = some w ∧
      raceLoads w = [some ⟨changingPath, .returned raceWinner⟩,
        some ⟨changingPath, .returned raceWinner⟩, some ⟨absentPath, .failed (.file .notFound)⟩] ∧
      (changingPath.parts, raceWinner) ∈ w.cache.entries ∧
      ∀ i path shared, w.load? i = some ⟨path, .returned shared⟩ →
        path.parts = changingPath.parts → shared = raceWinner) ∧
    ∃ w, (World.start false raceFiles).after? race = some w ∧
      raceLoads w = [some ⟨changingPath, .returned raceLoser⟩,
        some ⟨changingPath, .returned raceWinner⟩, some ⟨absentPath, .failed (.file .notFound)⟩] ∧
      w.cache.entries = [] := by
  -- what is found in the end is computed, and that it is the same for all loads is not
  have hon : ((World.start true raceFiles).after? race).map raceLoads =
      some [some ⟨changingPath, .returned raceWinner⟩, some ⟨changingPath, .returned raceWinner⟩,
        some ⟨absentPath, .failed (.file .notFound)⟩] := by decide +kernel
  have hoff : ((World.start false raceFiles).after? race).map raceLoads =
      some [some ⟨changingPath, .returned raceLoser⟩, some ⟨changingPath, .returned raceWinner⟩,
        some ⟨absentPath, .failed (.file .notFound)⟩] := by decide +kernel
  -- the worlds at the end come from the runs, and what holds in them from the theorem
  obtain ⟨w, hrun, hloads⟩ := Option.map_eq_some_iff.1 hon
  obtain ⟨w', hrun', hloads'⟩ := Option.map_eq_some_iff.1 hoff
  obtain ⟨-, -, -, hentry, hagree⟩ := (loads_agree hrun).1 rfl
  have hwinner : w.load? 2 = some ⟨changingPath, .returned raceWinner⟩ := by
    simp only [raceLoads, List.cons.injEq] at hloads
    exact hloads.2.1
  refine ⟨⟨w, hrun, hloads, hentry 2 _ _ hwinner, ?_⟩, w', hrun', hloads', ?_⟩
  · intro i path shared hat hparts
    exact hagree i 2 path changingPath shared raceWinner hat hwinner hparts
  · exact ((loads_agree hrun').2.1 rfl).1

end QueryGateway.Interleaving
