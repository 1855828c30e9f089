import QueryGateway.Execution.Cache
import QueryGateway.Proofs.Keyed

/-!
# Entries of the descriptor cache

What the steps of a load do to a cache. `DescriptorCache.Extends` is all that a step may do: the
entries that are there stay as they are and where they are, what is added has a path of its own, and
compilations are counted on. In a cache whose paths are all different, an entry is found under its
path exactly if it is there (`lookup?_eq_some_iff`), so what is found once is found for good
(`Extends.lookup?_eq_some`), and `lookup?_keep` says that keeping a descriptor hands out the entry.
-/

namespace QueryGateway.DescriptorCache

variable {c d e : DescriptorCache} {path : FilePath} {shared : SharedDescriptor}

/-! ### Finding entries -/

/-- No path has two entries. Paths are compared by their parts, so two ways to write one path have
one entry. -/
def HasOneEach (c : DescriptorCache) : Prop :=
  (c.entries.map (·.1)).Nodup

theorem isEnabled_of_lookup? (h : c.lookup? path = some shared) : c.isEnabled = true := by
  rw [lookup?] at h
  split at h
  · assumption
  · cases h

theorem mem_entries_of_lookup? (h : c.lookup? path = some shared) :
    (path.parts, shared) ∈ c.entries := by
  rw [lookup?, if_pos (isEnabled_of_lookup? h), Option.map_eq_some_iff] at h
  obtain ⟨entry, hentry, rfl⟩ := h
  have hparts : entry.1 = path.parts := by simpa using List.find?_some hentry
  rw [← hparts]
  exact List.mem_of_find?_eq_some hentry

/-- **What is found for a path** is its entry. -/
theorem lookup?_eq_some_iff (hon : c.isEnabled = true) (hone : c.HasOneEach) :
    c.lookup? path = some shared ↔ (path.parts, shared) ∈ c.entries := by
  constructor
  · exact mem_entries_of_lookup?
  · intro hmem
    rw [lookup?, if_pos hon, Option.map_eq_some_iff]
    exact ⟨_, (Keyed.find?_eq_some_iff hone).2 ⟨hmem, rfl⟩, rfl⟩

theorem lookup?_eq_none_iff (hon : c.isEnabled = true) :
    c.lookup? path = none ↔ path.parts ∉ c.entries.map (·.1) := by
  rw [lookup?, if_pos hon, Option.map_eq_none_iff, List.find?_eq_none, List.mem_map]
  constructor
  · rintro h ⟨entry, hmem, hparts⟩
    exact h entry hmem (decide_eq_true hparts)
  · intro h entry hmem hparts
    exact h ⟨entry, hmem, of_decide_eq_true hparts⟩

/-! ### What a step leaves -/

/-- **A cache that is further on:** nothing that is kept is given up or replaced. -/
structure Extends (c d : DescriptorCache) : Prop where
  isEnabled : d.isEnabled = c.isEnabled
  entries : c.entries <+: d.entries
  hasOneEach : c.HasOneEach → d.HasOneEach
  compilations : c.compilations ≤ d.compilations

theorem Extends.refl (c : DescriptorCache) : c.Extends c :=
  ⟨rfl, List.prefix_rfl, id, Nat.le_refl _⟩

theorem Extends.trans (h : c.Extends d) (h' : d.Extends e) : c.Extends e :=
  ⟨h'.isEnabled.trans h.isEnabled, h.entries.trans h'.entries, h'.hasOneEach ∘ h.hasOneEach,
    Nat.le_trans h.compilations h'.compilations⟩

/-- **What was found once** is found for good. -/
theorem Extends.lookup?_eq_some (h : c.Extends d) (hone : c.HasOneEach)
    (hfound : c.lookup? path = some shared) : d.lookup? path = some shared := by
  have hon := isEnabled_of_lookup? hfound
  have hmem := (lookup?_eq_some_iff hon hone).1 hfound
  exact (lookup?_eq_some_iff (h.isEnabled.trans hon) (h.hasOneEach hone)).2
    (h.entries.subset hmem)

theorem share_extends (c : DescriptorCache) (descriptor : CommandDescriptor) :
    c.Extends (c.share descriptor).2 :=
  ⟨rfl, List.prefix_rfl, id, Nat.le_succ _⟩

/-- **Keeping, case by case:** an entry that is there, a new one at the end, or none in a cache that
is off. -/
inductive Keeping (c : DescriptorCache) (path : FilePath) (shared : SharedDescriptor) :
    SharedDescriptor × DescriptorCache → Prop where
  | found (kept : SharedDescriptor) (h : c.lookup? path = some kept) :
    Keeping c path shared (kept, c)
  | added (hon : c.isEnabled = true) (h : c.lookup? path = none) :
    Keeping c path shared (shared, { c with entries := c.entries ++ [(path.parts, shared)] })
  | off (hoff : c.isEnabled = false) : Keeping c path shared (shared, c)

theorem keep_keeping (c : DescriptorCache) (path : FilePath) (shared : SharedDescriptor) :
    Keeping c path shared (c.keep path shared) := by
  rw [keep]
  split
  · next hon =>
    cases h : c.lookup? path with
    | some kept => exact .found kept h
    | none => exact .added hon h
  · next hoff => exact .off (eq_false_of_ne_true hoff)

theorem keep_extends (c : DescriptorCache) (path : FilePath) (shared : SharedDescriptor) :
    c.Extends (c.keep path shared).2 := by
  have hkeeping := keep_keeping c path shared
  generalize c.keep path shared = after at *
  -- three ways to keep: the entry was there, the cache is off, or it is added at the end
  cases hkeeping with
  | found kept h => exact .refl c
  | off hoff => exact .refl c
  | added hon h =>
    refine ⟨rfl, List.prefix_append _ _, fun hone => ?_, Nat.le_refl _⟩
    -- one entry each: the new one differs from those that are there
    rw [HasOneEach, List.map_append, List.nodup_append]
    refine ⟨hone, List.pairwise_singleton _ _, ?_⟩
    -- the path of the new entry was looked for and not found
    intro parts hparts other hother heq
    rw [heq, List.mem_singleton.1 hother] at hparts
    exact (lookup?_eq_none_iff hon).1 h hparts

/-- **Keeping hands out the entry,** whoever brought it. -/
theorem lookup?_keep (hon : c.isEnabled = true) (hone : c.HasOneEach) (path : FilePath)
    (shared : SharedDescriptor) :
    (c.keep path shared).2.lookup? path = some (c.keep path shared).1 := by
  have hextends := keep_extends c path shared
  have hkeeping := keep_keeping c path shared
  generalize c.keep path shared = after at *
  -- by who brought it: the entry found, no entry in a cache that is off, or the one just added
  cases hkeeping with
  | found kept h => exact h
  | off hoff => exact absurd hon (by rw [hoff]; exact Bool.false_ne_true)
  | added hon h =>
    refine (lookup?_eq_some_iff ?_ (hextends.hasOneEach hone)).2 ?_
    · exact hextends.isEnabled.trans hon
    · exact List.mem_append_right _ List.mem_cons_self

/-- What is kept was there before, or has just been brought to a cache that keeps it. -/
theorem mem_entries_keep {entry : List PathPart × SharedDescriptor}
    (h : entry ∈ (c.keep path shared).2.entries) :
    entry ∈ c.entries ∨ c.isEnabled = true ∧ entry = (path.parts, shared) := by
  have hkeeping := keep_keeping c path shared
  -- only the last of the three ways adds anything
  generalize c.keep path shared = after at *
  cases hkeeping with
  | found kept hfound => exact .inl h
  | off hoff => exact .inl h
  | added hon hnew =>
    exact (List.mem_append.1 h).imp_right fun hentry => ⟨hon, List.mem_singleton.1 hentry⟩

/-- A cache that is off hands back what it is given. -/
theorem keep_of_off (hoff : c.isEnabled = false) (path : FilePath) (shared : SharedDescriptor) :
    c.keep path shared = (shared, c) := by
  rw [keep, hoff, if_neg Bool.false_ne_true]

end QueryGateway.DescriptorCache
