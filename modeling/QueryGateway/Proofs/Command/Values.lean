import QueryGateway.Command.Values
import QueryGateway.Proofs.Keyed
import QueryGateway.Proofs.Text.LowerCase

/-!
# Supplied values as a map

The entries of supplied values form a map: their keys differ from each other and are keys of
themselves (`ParameterValues.IsNormal`). Values come about by a few operations only
(`ParameterValues.Reachable`), each of which keeps this (`Reachable.isNormal`).
-/

namespace QueryGateway.ParameterValues

open Text

/-- **Values that come about:** from none by supplying and withdrawing. There is no other way to get
any, so what these steps preserve holds of all. -/
inductive Reachable : ParameterValues → Prop where
  | empty : Reachable empty
  | insert {vs : ParameterValues} (h : Reachable vs) (name : String) (value : RawValue) :
    Reachable (vs.insert name value)
  | erase {vs : ParameterValues} (h : Reachable vs) (name : String) : Reachable (vs.erase name)

/-- **The invariant of supplied values.** Both clauses together make the entries a map with an
order, in which a key is looked up as it is. -/
structure IsNormal (vs : ParameterValues) : Prop where
  /-- No two entries have one key. -/
  keys_nodup : (vs.entries.map (·.1)).Nodup
  /-- Every key is the key of itself. -/
  key_key : ∀ e ∈ vs.entries, parameterKey e.1 = e.1

/-! ### The operations that make values at once -/

theorem reachable_foldl_insert (pairs : List (String × RawValue)) {vs : ParameterValues}
    (h : Reachable vs) :
    Reachable (pairs.foldl (fun vs pair => vs.insert pair.1 pair.2) vs) := by
  induction pairs generalizing vs with
  | nil => exact h
  | cons pair rest ih => exact ih (h.insert pair.1 pair.2)

theorem reachable_ofList (pairs : List (String × RawValue)) : Reachable (ofList pairs) :=
  reachable_foldl_insert pairs .empty

theorem Reachable.offer {vs : ParameterValues} (h : Reachable vs) (pair : String × String) :
    Reachable (vs.offer pair) := by
  unfold ParameterValues.offer
  split
  · exact h
  · exact h.insert pair.1 _

theorem reachable_foldl_offer (pairs : List (String × String)) {vs : ParameterValues}
    (h : Reachable vs) : Reachable (pairs.foldl ParameterValues.offer vs) := by
  induction pairs generalizing vs with
  | nil => exact h
  | cons pair rest ih => exact ih (h.offer pair)

theorem reachable_ofQueryPairs (pairs : List (String × String)) : Reachable (ofQueryPairs pairs) :=
  reachable_foldl_offer pairs .empty

/-! ### What is there afterwards -/

/-- What was put is found: it replaces the first entry with the key, or stands at the end. -/
theorem find?_put_self (key : String) (value : RawValue) (entries : List (String × RawValue)) :
    (put key value entries).find? (·.1 = key) = some (key, value) := by
  induction entries with
  | nil =>
    rw [put]
    exact List.find?_cons_of_pos (decide_eq_true rfl)
  | cons e rest ih =>
    rw [put]
    -- the entry with the key is replaced in its place, so the search stops at the same one
    by_cases h : e.1 = key
    · rw [if_pos h]
      exact List.find?_cons_of_pos (decide_eq_true rfl)
    · rw [if_neg h, List.find?_cons_of_neg (by simpa using h)]
      exact ih

/-- **A supplied value is found.** -/
theorem get?_insert_self (vs : ParameterValues) (name : String) (value : RawValue) :
    (vs.insert name value).get? name = some value := by
  rw [get?, ParameterValues.insert, find?_put_self]
  rfl

/-- **A withdrawn value is not found.** -/
theorem get?_erase_self (vs : ParameterValues) (name : String) :
    (vs.erase name).get? name = none := by
  rw [get?, Option.map_eq_none_iff, List.find?_eq_none]
  intro e he
  have hkey := (List.mem_filter.1 he).2
  rw [decide_eq_true_eq] at hkey ⊢
  exact hkey

/-! ### The invariant -/

theorem put_eq_put (key : String) (value : RawValue) (entries : List (String × RawValue)) :
    put key value entries = Keyed.put Prod.fst (key, value) entries := by
  induction entries with
  | nil => rfl
  | cons e rest ih => rw [put, Keyed.put, ih]

/-- Supplying a value keeps the keys in their places; a new key goes to the end. -/
theorem map_fst_put (key : String) (value : RawValue) (entries : List (String × RawValue)) :
    (put key value entries).map (·.1) =
      if key ∈ entries.map (·.1) then entries.map (·.1) else entries.map (·.1) ++ [key] := by
  rw [put_eq_put]
  exact Keyed.map_key_put (key, value) entries

theorem IsNormal.insert {vs : ParameterValues} (h : vs.IsNormal) (name : String)
    (value : RawValue) : (vs.insert name value).IsNormal := by
  have hkeys := map_fst_put (parameterKey name) value vs.entries
  refine ⟨?_, ?_⟩
  · rw [ParameterValues.insert, put_eq_put]
    exact Keyed.nodup_put h.keys_nodup _
  · intro e he
    have hmem : e.1 ∈ (put (parameterKey name) value vs.entries).map (·.1) :=
      List.mem_map_of_mem he
    rw [hkeys] at hmem
    -- a key is one that was there or the key of the name
    have hcases : e.1 ∈ vs.entries.map (·.1) ∨ e.1 = parameterKey name := by
      split at hmem
      · exact Or.inl hmem
      · rcases List.mem_append.1 hmem with hmem | hmem
        · exact Or.inl hmem
        · exact Or.inr (List.mem_singleton.1 hmem)
    rcases hcases with hold | hnew
    · obtain ⟨e', he', hkey⟩ := List.mem_map.1 hold
      rw [← hkey]
      exact h.key_key e' he'
    · rw [hnew]
      exact parameterKey_parameterKey name

theorem IsNormal.erase {vs : ParameterValues} (h : vs.IsNormal) (name : String) :
    (vs.erase name).IsNormal := by
  refine ⟨?_, fun e he => h.key_key e (List.mem_filter.1 he).1⟩
  exact h.keys_nodup.sublist (List.filter_sublist.map _)

/-- **What is found under a name** is the entry with the key of the name. -/
theorem IsNormal.get?_eq_some_iff {vs : ParameterValues} (h : vs.IsNormal) {name : String}
    {raw : RawValue} : vs.get? name = some raw ↔ (parameterKey name, raw) ∈ vs.entries := by
  rw [get?, Option.map_eq_some_iff]
  constructor
  · rintro ⟨e, he, rfl⟩
    -- among distinct keys the entry found first is the only one
    obtain ⟨hmem, hkey⟩ := (Keyed.find?_eq_some_iff h.keys_nodup).1 he
    rw [← hkey]
    exact hmem
  · intro hmem
    exact ⟨_, (Keyed.find?_eq_some_iff h.keys_nodup).2 ⟨hmem, rfl⟩, rfl⟩

/-- **Values that come about form a map.** -/
theorem Reachable.isNormal {vs : ParameterValues} (h : Reachable vs) : vs.IsNormal := by
  induction h with
  | empty => exact ⟨List.nodup_nil, fun e he => absurd he List.not_mem_nil⟩
  | insert h name value ih => exact ih.insert name value
  | erase h name ih => exact ih.erase name

end QueryGateway.ParameterValues
