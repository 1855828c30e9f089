import Mathlib.Data.List.Nodup

/-!
# Lists with keys

Supplied values, the tables of settings and the tenants of a registry are lists whose entries have
keys. Each has its own operation that puts an entry in place of the one of its key, or at the end if
there is none; `put` is the common form of them.

Putting keeps the keys in their places and brings in at most one (`map_key_put`), so no key comes
twice (`nodup_put`). In a list where none does, an entry is found under its key exactly if it is
there (`find?_eq_some_iff`).

Entries that are put one after the other (`putAll`) leave the last one of each key
(`mem_putAll_of_last`). If their keys differ, they are simply listed (`putAll_of_nodup`).
-/

namespace QueryGateway.Keyed

variable {α κ : Type} [DecidableEq κ] {key : α → κ} {l : List α}

/-- The list with one more entry, in place of the one of its key or at the end. -/
def put (key : α → κ) (a : α) : List α → List α
  | [] => [a]
  | b :: rest => if key b = key a then a :: rest else b :: put key a rest

/-- **Putting keeps the keys in their places;** a new key goes to the end. -/
theorem map_key_put (a : α) (l : List α) :
    (put key a l).map key =
      if key a ∈ l.map key then l.map key else l.map key ++ [key a] := by
  induction l with
  | nil => rfl
  | cons b rest ih =>
    rw [put]
    -- the entry at the front has the key and is replaced, or the search goes on
    by_cases h : key b = key a
    · rw [if_pos h, List.map_cons, List.map_cons, h, if_pos List.mem_cons_self]
    · -- then the key is in the list if it is behind the front
      have hmem : key a ∈ (b :: rest).map key ↔ key a ∈ rest.map key := by
        rw [List.map_cons, List.mem_cons]
        exact or_iff_right fun hk => h hk.symm
      rw [if_neg h, List.map_cons, ih]
      by_cases hin : key a ∈ rest.map key
      · rw [if_pos hin, if_pos (hmem.2 hin), List.map_cons]
      · rw [if_neg hin, if_neg fun hk => hin (hmem.1 hk), List.map_cons, List.cons_append]

/-- Putting an entry brings in no key twice: a new key goes to the end only if it is not there. -/
theorem nodup_put (h : (l.map key).Nodup) (a : α) : ((put key a l).map key).Nodup := by
  rw [map_key_put]
  split
  · exact h
  · next hnew =>
    rw [List.nodup_append]
    refine ⟨h, List.pairwise_singleton _ _, ?_⟩
    intro k hk k' hk' heq
    rw [List.mem_singleton] at hk'
    rw [heq, hk'] at hk
    exact hnew hk

/-- An entry of a new key goes to the end. -/
theorem put_of_not_mem {a : α} (h : key a ∉ l.map key) : put key a l = l ++ [a] := by
  induction l with
  | nil => rfl
  | cons b rest ih =>
    rw [List.map_cons, List.mem_cons, not_or] at h
    rw [put, if_neg (Ne.symm h.1), ih h.2, List.cons_append]

/-- An entry takes the place of the first of its key. -/
theorem put_append_of_not_mem {before after : List α} {a b : α} (h : key a ∉ before.map key)
    (hkey : key b = key a) : put key a (before ++ b :: after) = before ++ a :: after := by
  induction before with
  | nil => rw [List.nil_append, put, if_pos hkey, List.nil_append]
  | cons c before ih =>
    rw [List.map_cons, List.mem_cons, not_or] at h
    rw [List.cons_append, put, if_neg (Ne.symm h.1), ih h.2, List.cons_append]

/-- **Of two entries of one key** that are put one after the other the later one stays. -/
theorem put_put {a b : α} (hkey : key a = key b) (l : List α) :
    put key b (put key a l) = put key b l := by
  induction l with
  | nil => simp only [put, if_pos hkey]
  | cons c rest ih =>
    by_cases h : key c = key a
    · simp only [put, if_pos h, if_pos hkey, if_pos (h.trans hkey)]
    · have hb : key c ≠ key b := hkey ▸ h
      simp only [put, if_neg h, if_neg hb, ih]

/-- Under another key there is what was there before. -/
theorem find?_put_of_ne {k : κ} {a : α} (h : k ≠ key a) :
    (put key a l).find? (fun b => key b = k) = l.find? fun b => key b = k := by
  induction l with
  | nil => exact List.find?_cons_of_neg (by simpa using Ne.symm h)
  | cons b rest ih =>
    rw [put]
    split
    next hkey => simp [hkey, Ne.symm h]
    · rw [List.find?_cons, List.find?_cons, ih]

/-- **What is found under a key** is the entry of that key. -/
theorem find?_eq_some_iff (h : (l.map key).Nodup) {k : κ} {a : α} :
    l.find? (fun b => key b = k) = some a ↔ a ∈ l ∧ key a = k := by
  constructor
  · intro hfind
    exact ⟨List.mem_of_find?_eq_some hfind, by simpa using List.find?_some hfind⟩
  · rintro ⟨hmem, rfl⟩
    cases hfind : l.find? fun b => key b = key a with
    | none =>
      rw [List.find?_eq_none] at hfind
      exact absurd (decide_eq_true rfl) (hfind a hmem)
    | some b =>
      -- two entries of one key are one entry
      have hkey : key b = key a := by simpa using List.find?_some hfind
      rw [List.inj_on_of_nodup_map h (List.mem_of_find?_eq_some hfind) hmem hkey]

/-! ### Entries put one after the other -/

theorem mem_put_self (a : α) (l : List α) : a ∈ put key a l := by
  induction l with
  | nil => exact List.mem_cons_self
  | cons b rest ih =>
    rw [put]
    split
    · exact List.mem_cons_self
    · exact List.mem_cons_of_mem b ih

/-- An entry of another key stays, whether the new entry takes a place before it or goes behind. -/
theorem mem_put_of_ne {a b : α} (hb : b ∈ l) (hne : key b ≠ key a) : b ∈ put key a l := by
  induction l with
  | nil => cases hb
  | cons c rest ih =>
    rw [put]
    rcases List.mem_cons.1 hb with rfl | hb
    · rw [if_neg hne]
      exact List.mem_cons_self
    · split
      · exact List.mem_cons_of_mem a hb
      · exact List.mem_cons_of_mem c (ih hb)

/-- The list with more entries, put one after the other. -/
def putAll (key : α → κ) (l : List α) (entries : List α) : List α :=
  entries.foldl (fun l a => put key a l) l

theorem nodup_putAll (h : (l.map key).Nodup) (entries : List α) :
    ((putAll key l entries).map key).Nodup := by
  induction entries generalizing l with
  | nil => exact h
  | cons a rest ih => exact ih (nodup_put h a)

/-- The keys after putting entries are those that were there and those of the entries. -/
theorem mem_map_key_putAll {entries : List α} {k : κ} :
    k ∈ (putAll key l entries).map key ↔ k ∈ l.map key ∨ k ∈ entries.map key := by
  induction entries generalizing l with
  | nil => simp [putAll]
  | cons a rest ih =>
    -- what one entry adds is its own key
    have hput : k ∈ (put key a l).map key ↔ k ∈ l.map key ∨ k = key a := by
      rw [map_key_put]
      split
      · next hold =>
        refine ⟨.inl, fun h => ?_⟩
        rcases h with h | rfl
        · exact h
        · exact hold
      · rw [List.mem_append, List.mem_singleton]
    calc k ∈ (putAll key l (a :: rest)).map key
        ↔ k ∈ (put key a l).map key ∨ k ∈ rest.map key := ih
      _ ↔ (k ∈ l.map key ∨ k = key a) ∨ k ∈ rest.map key := by rw [hput]
      _ ↔ k ∈ l.map key ∨ k ∈ (a :: rest).map key := by
        rw [List.map_cons, List.mem_cons, or_assoc]

/-- **Entries of different keys** are listed in their order. -/
theorem putAll_of_nodup {entries : List α} (h : (l.map key ++ entries.map key).Nodup) :
    putAll key l entries = l ++ entries := by
  induction entries generalizing l with
  | nil => exact (List.append_nil l).symm
  | cons a rest ih =>
    rw [List.map_cons] at h
    -- the first entry has a new key, so it goes to the end
    have hnew : key a ∉ l.map key := by
      intro hmem
      exact (List.nodup_append.1 h).2.2 (key a) hmem (key a) List.mem_cons_self rfl
    have hnodup : ((l ++ [a]).map key ++ rest.map key).Nodup := by
      rw [List.map_append, List.append_assoc]
      exact h
    calc putAll key l (a :: rest)
        = putAll key (put key a l) rest := rfl
      _ = putAll key (l ++ [a]) rest := by rw [put_of_not_mem hnew]
      _ = l ++ [a] ++ rest := ih hnodup
      _ = l ++ a :: rest := List.append_cons l a rest |>.symm

theorem mem_putAll_of_not_mem {entries : List α} {b : α} (hb : b ∈ l)
    (h : key b ∉ entries.map key) : b ∈ putAll key l entries := by
  induction entries generalizing l with
  | nil => exact hb
  | cons a rest ih =>
    rw [List.map_cons, List.mem_cons, not_or] at h
    exact ih (mem_put_of_ne hb h.1) h.2

/-- **The last entry of a key stays.** -/
theorem mem_putAll_of_last {before after : List α} {a : α} (h : key a ∉ after.map key) :
    a ∈ putAll key l (before ++ a :: after) := by
  rw [putAll, List.foldl_append, List.foldl_cons]
  change a ∈ putAll key (put key a (putAll key l before)) after
  exact mem_putAll_of_not_mem (mem_put_self a _) h

end QueryGateway.Keyed
