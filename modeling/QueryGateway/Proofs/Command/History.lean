import QueryGateway.Proofs.Command.Values
import QueryGateway.Proofs.First

/-!
# Histories of supplied values

Values are supplied and withdrawn under names, one after the other, or made anew of many pairs at
once. `values_form_map` says what is there after any history of such operations: a map with an
order, whose keys are the names apart from markers and case.

What is found under a name is left there by the last operation that concerns its key
(`get?_after_eq_some_iff`). One operation decides it or leaves it as it was
(`Operation.get?_apply_eq_some_iff`), and the history follows by induction from its end. A key that
is there keeps its place, a new one goes to the end, and without one of them the others stay in
their order (`keys_insert`, `keys_erase`).

The pairs of a query are the one case in which the first and not the last value counts, and only
values that are not blank count at all. `IsOffered` is a pair that counts, and `AreFirstOffers` says
which values a query makes. It is an invariant of the loop over the pairs: one more pair at the end
is the first of its key, or it changes nothing (`AreFirstOffers.offer`).
-/

namespace QueryGateway.ParameterValues

open Text

variable {vs : ParameterValues} {key : String} {pairs : List (String × String)}

/-- The keys of the values, in their order. -/
def keys (vs : ParameterValues) : List String :=
  vs.entries.map (·.1)

/-! ### One name -/

/-- **A supplied value is found under the names of its key,** and no other value is touched. -/
theorem get?_insert (vs : ParameterValues) (name other : String) (value : RawValue) :
    (vs.insert name value).get? other =
      if parameterKey name = parameterKey other then some value else vs.get? other := by
  split
  next h =>
    rw [get?, ← h, ParameterValues.insert, find?_put_self]
    rfl
  -- under another key the entries are those of before
  next h =>
    have hfind : (vs.insert name value).entries.find? (·.1 = parameterKey other) =
        vs.entries.find? (·.1 = parameterKey other) := by
      rw [ParameterValues.insert, put_eq_put]
      exact Keyed.find?_put_of_ne (Ne.symm h)
    rw [get?, get?, hfind]

/-- **A withdrawn value is found no more,** and no other value is touched. -/
theorem get?_erase (vs : ParameterValues) (name other : String) :
    (vs.erase name).get? other =
      if parameterKey name = parameterKey other then none else vs.get? other := by
  split
  -- withdrawn: no entry has the key any more
  next h =>
    have herased := get?_erase_self vs name
    rw [get?, h] at herased
    exact herased
  next h =>
    have hfind : (vs.erase name).entries.find? (·.1 = parameterKey other) =
        vs.entries.find? (·.1 = parameterKey other) := by
      rw [ParameterValues.erase, List.find?_filter]
      refine congrArg (vs.entries.find? ·) (funext fun e => ?_)
      -- an entry of the other key has not the key that is withdrawn
      by_cases he : e.1 = parameterKey other
      · simp [he, Ne.symm h]
      · simp [he]
    rw [get?, get?, hfind]

theorem keys_insert (vs : ParameterValues) (name : String) (value : RawValue) :
    (vs.insert name value).keys =
      if parameterKey name ∈ vs.keys then vs.keys else vs.keys ++ [parameterKey name] :=
  map_fst_put (parameterKey name) value vs.entries

theorem keys_erase (h : vs.IsNormal) (name : String) :
    (vs.erase name).keys = vs.keys.erase (parameterKey name) := by
  have hnodup : (vs.entries.map (·.1)).Nodup := h.keys_nodup
  have hfilter : (vs.erase name).entries.map (·.1) =
      (vs.entries.map (·.1)).filter (· ≠ parameterKey name) := by
    rw [ParameterValues.erase, List.filter_map, Function.comp_def]
  rw [keys, keys, hfilter, hnodup.erase_eq_filter]
  refine List.filter_congr fun key _ => ?_
  rw [bne, Bool.beq_eq_decide_eq, decide_not]

/-! ### The pairs of a query -/

/-- **A pair that counts** for a key: its name has the key, and its value is not blank. -/
def IsOffered (key : String) (pair : String × String) : Prop :=
  parameterKey pair.1 = key ∧ isAllBlank pair.2 = false

instance (key : String) : DecidablePred (IsOffered key) := fun pair =>
  inferInstanceAs (Decidable (parameterKey pair.1 = key ∧ isAllBlank pair.2 = false))

/-- **The values of a query.** There is one for each key that has a pair that counts. It is the text
of the first of them, as it came, and the keys are in the order of these first pairs. -/
structure AreFirstOffers (pairs : List (String × String)) (vs : ParameterValues) : Prop where
  keys_nodup : vs.keys.Nodup
  mem_entries_iff : ∀ key value, (key, value) ∈ vs.entries ↔
    ∃ pair, IsFirst (IsOffered key) pairs pair ∧ value = .text pair.2
  keys_sorted : (vs.keys.map fun key => pairs.findIdx (IsOffered key ·)).Pairwise (· < ·)

theorem mem_keys_iff : key ∈ vs.keys ↔ ∃ value, (key, value) ∈ vs.entries := by
  rw [keys, List.mem_map]
  constructor
  · rintro ⟨⟨k, value⟩, he, rfl⟩
    exact ⟨value, he⟩
  · rintro ⟨value, he⟩
    exact ⟨_, he, rfl⟩

namespace AreFirstOffers

variable (h : AreFirstOffers pairs vs)

include h

/-- The keys are those of the pairs that count. -/
theorem mem_keys_iff : key ∈ vs.keys ↔ ∃ pair ∈ pairs, IsOffered key pair := by
  rw [ParameterValues.mem_keys_iff, ← exists_isFirst_iff]
  constructor
  · rintro ⟨value, he⟩
    obtain ⟨pair, hpair, -⟩ := (h.mem_entries_iff key value).1 he
    exact ⟨pair, hpair⟩
  · rintro ⟨pair, hpair⟩
    exact ⟨.text pair.2, (h.mem_entries_iff key _).2 ⟨pair, hpair, rfl⟩⟩

/-- The first pair of a key stays where it is when more pairs come. -/
theorem map_findIdx_append (more : List (String × String)) :
    (vs.keys.map fun key => (pairs ++ more).findIdx (IsOffered key ·)) =
      vs.keys.map fun key => pairs.findIdx (IsOffered key ·) := by
  refine List.map_congr_left fun key hkey => ?_
  obtain ⟨pair, hmem, hpair⟩ := h.mem_keys_iff.1 hkey
  have hlt : pairs.findIdx (IsOffered key ·) < pairs.length :=
    List.findIdx_lt_length_of_exists ⟨pair, hmem, decide_eq_true hpair⟩
  rw [List.findIdx_append, if_pos hlt]

/-- A pair that is not the first of a key changes nothing. -/
theorem append_of_not_first {pair : String × String}
    (hpair : ∀ key, IsOffered key pair → key ∈ vs.keys) : AreFirstOffers (pairs ++ [pair]) vs := by
  -- the three clauses of the invariant: no key twice, which entries there are, and their order
  refine ⟨h.keys_nodup, fun key value => ?_, ?_⟩
  · -- a key that this pair offers was offered before, so the pair is not the first to do so
    have hnot : ¬ ((∀ c ∈ pairs, ¬ IsOffered key c) ∧ IsOffered key pair) := by
      rintro ⟨hnone, hoffered⟩
      obtain ⟨c, hc, hearlier⟩ := h.mem_keys_iff.1 (hpair key hoffered)
      exact hnone c hc hearlier
    rw [h.mem_entries_iff]
    refine exists_congr fun c => and_congr_left fun _ => ?_
    rw [isFirst_append_singleton_iff]
    exact (or_iff_left fun hfirst => hnot ⟨hfirst.1, hfirst.2.1⟩).symm
  · rw [h.map_findIdx_append]
    exact h.keys_sorted

/-- The first pair of a key brings its value, which goes to the end. -/
theorem append_of_first {pair : String × String} (hblank : isAllBlank pair.2 = false)
    (hnew : parameterKey pair.1 ∉ vs.keys) :
    AreFirstOffers (pairs ++ [pair]) (vs.insert pair.1 (.text pair.2)) := by
  -- the key is new, so the entry goes to the end
  have hentries : (vs.insert pair.1 (.text pair.2)).entries =
      vs.entries ++ [(parameterKey pair.1, .text pair.2)] := by
    rw [ParameterValues.insert, put_eq_put]
    exact Keyed.put_of_not_mem hnew
  have hkeys : (vs.insert pair.1 (.text pair.2)).keys = vs.keys ++ [parameterKey pair.1] := by
    rw [keys_insert, if_neg hnew]
  have hnone : ∀ c ∈ pairs, ¬ IsOffered (parameterKey pair.1) c := fun c hc hoffered =>
    hnew (h.mem_keys_iff.2 ⟨c, hc, hoffered⟩)
  refine ⟨?_, fun key value => ?_, ?_⟩
  · rw [hkeys]
    exact List.Nodup.append h.keys_nodup (List.nodup_singleton _)
      (List.disjoint_singleton.2 hnew)
  · -- an entry is an old one, or the one of this pair
    rw [hentries, List.mem_append, List.mem_singleton, h.mem_entries_iff]
    constructor
    · rintro (⟨c, hc, rfl⟩ | hlast)
      · exact ⟨c, isFirst_append_singleton_iff.2 (Or.inl hc), rfl⟩
      · obtain ⟨rfl, rfl⟩ := Prod.mk.inj hlast
        exact ⟨pair, isFirst_append_singleton_iff.2 (Or.inr ⟨hnone, ⟨rfl, hblank⟩, rfl⟩), rfl⟩
    · rintro ⟨c, hc, rfl⟩
      rcases isFirst_append_singleton_iff.1 hc with hc | ⟨-, ⟨rfl, -⟩, rfl⟩
      · exact Or.inl ⟨c, hc, rfl⟩
      · exact Or.inr rfl
  · -- the new key is first offered at the end, and the others before it
    have hend : (pairs ++ [pair]).findIdx (IsOffered (parameterKey pair.1) ·) = pairs.length := by
      have hlength : pairs.findIdx (IsOffered (parameterKey pair.1) ·) = pairs.length :=
        List.findIdx_eq_length.2 fun c hc => decide_eq_false (hnone c hc)
      have hoffered : IsOffered (parameterKey pair.1) pair := ⟨rfl, hblank⟩
      rw [List.findIdx_append, hlength, if_neg (Nat.lt_irrefl _), List.findIdx_singleton,
        if_pos (decide_eq_true hoffered)]
      exact Nat.zero_add _
    rw [hkeys, List.map_append, h.map_findIdx_append, List.map_singleton, hend,
      List.pairwise_append]
    -- the keys before are offered at places before the end
    refine ⟨h.keys_sorted, List.pairwise_singleton _ _, fun i hi j hj => ?_⟩
    obtain rfl := List.mem_singleton.1 hj
    obtain ⟨key, hkey, rfl⟩ := List.mem_map.1 hi
    obtain ⟨c, hc, hoffered⟩ := h.mem_keys_iff.1 hkey
    exact List.findIdx_lt_length_of_exists ⟨c, hc, decide_eq_true hoffered⟩

/-- **The invariant of the loop over the pairs.** -/
theorem offer (hnormal : vs.IsNormal) (pair : String × String) :
    AreFirstOffers (pairs ++ [pair]) (vs.offer pair) := by
  have hfound : (vs.get? pair.1).isSome = true ↔ parameterKey pair.1 ∈ vs.keys := by
    simp only [Option.isSome_iff_exists, hnormal.get?_eq_some_iff, ParameterValues.mem_keys_iff]
  rw [ParameterValues.offer]
  split
  -- a blank value, or a key that has a value: nothing changes
  next hskip =>
    refine h.append_of_not_first fun key hoffered => ?_
    obtain ⟨rfl, hblank⟩ := hoffered
    rw [hblank, Bool.false_or] at hskip
    exact hfound.1 hskip
  -- neither: this is the first pair that offers its key
  next htake =>
    rw [Bool.not_eq_true, Bool.or_eq_false_iff] at htake
    refine h.append_of_first htake.1 fun hmem => ?_
    rw [hfound.2 hmem] at htake
    exact absurd htake.2 Bool.noConfusion

end AreFirstOffers

/-- **A query supplies the first value of each key** that is not blank. -/
theorem areFirstOffers_ofQueryPairs (pairs : List (String × String)) :
    AreFirstOffers pairs (ofQueryPairs pairs) := by
  -- from the last pair, as the loop adds pairs at the end
  induction pairs using List.reverseRecOn with
  | nil =>
    refine ⟨List.nodup_nil, fun key value => ?_, List.Pairwise.nil⟩
    refine iff_of_false List.not_mem_nil ?_
    rintro ⟨pair, hpair, -⟩
    exact not_isFirst_nil hpair
  | append_singleton pairs pair ih =>
    have hstep : ofQueryPairs (pairs ++ [pair]) = (ofQueryPairs pairs).offer pair := by
      rw [ofQueryPairs, List.foldl_append]
      rfl
    rw [hstep]
    exact ih.offer (reachable_ofQueryPairs pairs).isNormal pair

/-! ### Operations -/

/-- **What is done to supplied values.** The last two put new values in place of all there were. -/
inductive Operation where
  | insert (name : String) (value : RawValue)
  | erase (name : String)
  /-- The values of pairs put one after the other. -/
  | collect (pairs : List (String × RawValue))
  /-- The values of the pairs of a query. -/
  | query (pairs : List (String × String))

namespace Operation

/-- The values after an operation. Collecting pairs and reading a query begin anew, whatever was
supplied before. -/
def apply (vs : ParameterValues) : Operation → ParameterValues
  | insert name value => vs.insert name value
  | erase name => vs.erase name
  | collect pairs => ofList pairs
  | query pairs => ofQueryPairs pairs

/-- Whether an operation decides what is under a key. The two that begin anew decide for every key,
also for one that they do not supply. -/
def Concerns (key : String) : Operation → Prop
  | insert name _ => parameterKey name = key
  | erase name => parameterKey name = key
  | collect _ => True
  | query _ => True

/-- **An operation that leaves a value under a key.** Of pairs that are collected the last one of
the key counts, and of the pairs of a query the first one whose value is not blank. -/
def Supplies (key : String) (value : RawValue) : Operation → Prop
  | insert name supplied => parameterKey name = key ∧ value = supplied
  | erase _ => False
  | collect pairs => ∃ pair, IsLast (fun pair => parameterKey pair.1 = key) pairs pair ∧
      value = pair.2
  | query pairs => ∃ pair, IsFirst (IsOffered key) pairs pair ∧ value = .text pair.2

theorem apply_reachable (h : Reachable vs) (op : Operation) : Reachable (op.apply vs) := by
  cases op with
  | insert name value => exact h.insert name value
  | erase name => exact h.erase name
  | collect pairs => exact reachable_ofList pairs
  | query pairs => exact reachable_ofQueryPairs pairs

end Operation

/-- **The last pair of a key** is what collecting leaves under it. -/
theorem get?_ofList_eq_some_iff {pairs : List (String × RawValue)} {name : String}
    {value : RawValue} :
    (ofList pairs).get? name = some value ↔
      ∃ pair, IsLast (fun pair => parameterKey pair.1 = parameterKey name) pairs pair ∧
        value = pair.2 := by
  -- from the last pair: it decides if it has the key, and else the pairs before it do
  induction pairs using List.reverseRecOn with
  | nil =>
    refine iff_of_false (fun h => by cases h) ?_
    rintro ⟨pair, hpair, -⟩
    exact not_isLast_nil hpair
  | append_singleton pairs pair ih =>
    have hstep : ofList (pairs ++ [pair]) = (ofList pairs).insert pair.1 pair.2 := by
      rw [ofList, List.foldl_append]
      rfl
    rw [hstep, get?_insert]
    simp only [isLast_append_singleton_iff]
    by_cases hkey : parameterKey pair.1 = parameterKey name
    · simp [hkey, eq_comm]
    · simp [hkey, ih]

/-- **One operation** decides what is under a name, or leaves it as it was. -/
theorem Operation.get?_apply_eq_some_iff (op : Operation) {name : String} {value : RawValue} :
    (op.apply vs).get? name = some value ↔
      op.Supplies (parameterKey name) value ∨
        ¬ op.Concerns (parameterKey name) ∧ vs.get? name = some value := by
  -- inserting and erasing concern one key; collecting and reading a query replace all of them
  cases op with
  | insert other supplied =>
    rw [apply, get?_insert, Supplies, Concerns]
    by_cases hkey : parameterKey other = parameterKey name
    · simp [hkey, eq_comm]
    · simp [hkey]
  | erase other =>
    rw [apply, get?_erase, Supplies, Concerns]
    by_cases hkey : parameterKey other = parameterKey name
    · simp [hkey]
    · simp [hkey]
  | collect pairs =>
    rw [apply, get?_ofList_eq_some_iff, Supplies, Concerns]
    simp
  | query pairs =>
    rw [apply, (reachable_ofQueryPairs pairs).isNormal.get?_eq_some_iff,
      (areFirstOffers_ofQueryPairs pairs).mem_entries_iff, Supplies, Concerns]
    simp

/-! ### Histories -/

/-- **The values after a history,** which begins with none. Any values that the program can have
come about in this way. -/
def after (history : List Operation) : ParameterValues :=
  history.foldl Operation.apply empty

theorem after_append_singleton (history : List Operation) (op : Operation) :
    after (history ++ [op]) = op.apply (after history) := by
  rw [after, List.foldl_append]
  rfl

theorem reachable_after (history : List Operation) : Reachable (after history) := by
  induction history using List.reverseRecOn with
  | nil => exact .empty
  | append_singleton history op ih =>
    rw [after_append_singleton]
    exact op.apply_reachable ih

/-- **What is found under a name** is what the last operation that concerns its key has left. -/
theorem get?_after_eq_some_iff (history : List Operation) {name : String} {value : RawValue} :
    (after history).get? name = some value ↔
      ∃ op, IsLast (Operation.Concerns (parameterKey name)) history op ∧
        op.Supplies (parameterKey name) value := by
  -- from the last operation, which decides alone if it concerns the key
  induction history using List.reverseRecOn with
  | nil =>
    refine iff_of_false (fun h => by cases h) ?_
    rintro ⟨op, hop, -⟩
    exact not_isLast_nil hop
  | append_singleton history op ih =>
    rw [after_append_singleton, op.get?_apply_eq_some_iff, ih]
    constructor
    · rintro (hsupplies | ⟨hconcerns, earlier, hlast, hsupplies⟩)
      · -- what supplies a value concerns its key
        have hconcerns : op.Concerns (parameterKey name) := by
          cases op with
          | insert other supplied => exact hsupplies.1
          | erase other => exact hsupplies.elim
          | collect pairs => trivial
          | query pairs => trivial
        exact ⟨op, isLast_append_singleton_iff.2 (Or.inl ⟨hconcerns, rfl⟩), hsupplies⟩
      · exact ⟨earlier, isLast_append_singleton_iff.2 (Or.inr ⟨hconcerns, hlast⟩), hsupplies⟩
    · rintro ⟨last, hlast, hsupplies⟩
      rcases isLast_append_singleton_iff.1 hlast with ⟨-, rfl⟩ | ⟨hconcerns, hlast⟩
      · exact Or.inl hsupplies
      · exact Or.inr ⟨hconcerns, last, hlast, hsupplies⟩

/-- **Supplied values are a map with an order.** After any history no two keys are equal, and each
is the key of itself. A name leads to what the last operation that concerns its key has left there,
and to nothing if that has left nothing. Supplying a value keeps the keys in their places and puts a
new one at the end, and withdrawing one keeps the order of the others. The pairs of a query leave
the first value of each key that is not blank, in the order of these pairs. -/
theorem values_form_map (history : List Operation) :
    let vs := after history
    vs.IsNormal ∧
    (∀ name value, vs.get? name = some value ↔
      ∃ op, IsLast (Operation.Concerns (parameterKey name)) history op ∧
        op.Supplies (parameterKey name) value) ∧
    (∀ name value, (vs.insert name value).keys =
      if parameterKey name ∈ vs.keys then vs.keys else vs.keys ++ [parameterKey name]) ∧
    (∀ name, (vs.erase name).keys = vs.keys.erase (parameterKey name)) ∧
    ∀ pairs, AreFirstOffers pairs (ofQueryPairs pairs) := by
  intro vs
  have hnormal : vs.IsNormal := (reachable_after history).isNormal
  refine ⟨hnormal, fun name value => get?_after_eq_some_iff history, fun name value => ?_,
    fun name => ?_, areFirstOffers_ofQueryPairs⟩
  · exact keys_insert vs name value
  · exact keys_erase hnormal name

/-- A query whose first value is blank, a second value under another spelling of its name, and a
value withdrawn. -/
example :
    (after [.insert "id" (.int 1), .query [("q", " "), ("day", "2"), ("@Q", " a"), ("q", "b")],
      .erase "@DAY", .insert "Page" (.int 2)]).entries =
      [("q", .text " a"), ("page", .int 2)] := by
  decide +kernel

end QueryGateway.ParameterValues
