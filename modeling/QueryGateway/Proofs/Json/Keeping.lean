import Mathlib.Data.String.Basic
import QueryGateway.Proofs.Json.Precision
import QueryGateway.Proofs.Json.Writing

/-!
# What reading and writing keeps

A JSON text is evaluated and its value written anew. What is written denotes the same tree up to
what becomes of numbers (`Tree.Keeps`): the items of arrays stay in their places, strings stay as
they are, and of every name the last member stays. This holds of every tree that has a value at all
(`Tree.Fits`): that is not nested too deeply, with strings that are texts and numbers in range.

The induction is on the grammar (`Writes.isKept`). Members are put in their places one after the
other, so its case for members speaks of those that are there already.
-/

namespace QueryGateway.Json

open Text

/-! ### Trees that are kept -/

/-- The last member of a name. The members before it are read over by everyone who keeps one value
for each name. -/
def lastOf? (name : String) : List (Option String × Tree) → Option Tree
  | [] => none
  | m :: rest => (lastOf? name rest).or (if m.1 = some name then some m.2 else none)

namespace Tree

/-- **The trees that have values** within a number of levels: strings and names are texts, and
numbers are in range. -/
inductive Fits : Nat → Tree → Prop where
  | null (n : Nat) : Fits n .null
  | bool (n : Nat) (b : Bool) : Fits n (.bool b)
  | number (n : Nat) {x : Numeral} (h : x.magnitude ≤ greatestRead) : Fits n (.number x)
  | string (n : Nat) (s : String) : Fits n (.string (some s))
  | array {n : Nat} {items : List Tree} (h : ∀ t ∈ items, Fits n t) : Fits (n + 1) (.array items)
  | object {n : Nat} {members : List (Option String × Tree)} (hname : ∀ m ∈ members, m.1.isSome)
      (h : ∀ m ∈ members, Fits n m.2) : Fits (n + 1) (.object members)

/-- **What stays of a tree.** Of every name an object has the last member, and no name comes
twice. -/
inductive Keeps : Tree → Tree → Prop where
  | null : Keeps .null .null
  | bool (b : Bool) : Keeps (.bool b) (.bool b)
  | number {x x' : Numeral} (h : x.KeptAs x') : Keeps (.number x) (.number x')
  | string (s : Option String) : Keeps (.string s) (.string s)
  | array {items items' : List Tree} (h : List.Forall₂ Keeps items items') :
    Keeps (.array items) (.array items')
  | object {members members' : List (Option String × Tree)}
      (nodup : (members'.map Prod.fst).Nodup)
      (h : ∀ name, Option.Rel Keeps (lastOf? name members) (lastOf? name members')) :
    Keeps (.object members) (.object members')

end Tree

/-- A value that is written as what stays of a tree: its text is one of the grammar, and the tree
that this text says is kept of the first one. -/
def Renews (j : Json) (t : Tree) : Prop :=
  ∃ t', Writes j.render.toList (.value t') ∧ t.Keeps t'

/-! ### Sorted members -/

/-- Members that are sorted by name, so that no name comes twice. -/
def IsSorted (ms : List (String × Json)) : Prop :=
  ms.Pairwise fun m m' => m.1 < m'.1

/-- **What is in an object after an insertion:** the new member, and every member of another name.
It takes the order, since the search for the place stops at the first greater name. -/
theorem mem_insertMember {name : String} {value : Json} {ms : List (String × Json)}
    (h : IsSorted ms) {m : String × Json} :
    m ∈ insertMember name value ms ↔ m = (name, value) ∨ m.1 ≠ name ∧ m ∈ ms := by
  -- the induction follows the search for the place
  induction ms with
  | nil => simp [insertMember]
  | cons first rest ih =>
    obtain ⟨hfirst, hrest⟩ := List.pairwise_cons.1 h
    rw [insertMember]
    split
    next heq =>
      -- what comes behind has greater names
      have hne : m ∈ rest → m.1 ≠ name := fun hm => heq ▸ (hfirst m hm).ne'
      rw [List.mem_cons, List.mem_cons]
      constructor
      · rintro (rfl | hm)
        · exact .inl rfl
        · exact .inr ⟨hne hm, .inr hm⟩
      · rintro (rfl | ⟨hm, rfl | hmem⟩)
        · exact .inl rfl
        · exact absurd heq.symm hm
        · exact .inr hmem
    next hne =>
      split
      next hlt =>
        -- the place is here, and all that comes behind is greater than what is inserted
        have hne' : m ∈ first :: rest → m.1 ≠ name := by
          rintro hm rfl
          obtain rfl | hm := List.mem_cons.1 hm
          · exact hne rfl
          · exact absurd (hlt.trans (hfirst m hm)) (lt_irrefl _)
        rw [List.mem_cons]
        exact or_congr_right ⟨fun hm => ⟨hne' hm, hm⟩, And.right⟩
      next hge =>
        -- the place is further back, and the first member has another name
        rw [List.mem_cons, List.mem_cons, ih hrest]
        constructor
        · rintro (rfl | rfl | ⟨hm, hmem⟩)
          · exact .inr ⟨Ne.symm hne, .inl rfl⟩
          · exact .inl rfl
          · exact .inr ⟨hm, .inr hmem⟩
        · rintro (rfl | ⟨hm, rfl | hmem⟩)
          · exact .inr (.inl rfl)
          · exact .inl rfl
          · exact .inr (.inr ⟨hm, hmem⟩)

/-- Inserting keeps the members in order. -/
theorem isSorted_insertMember (name : String) (value : Json) {ms : List (String × Json)}
    (h : IsSorted ms) : IsSorted (insertMember name value ms) := by
  induction ms with
  | nil => exact List.pairwise_singleton _ _
  | cons first rest ih =>
    obtain ⟨hfirst, hrest⟩ := List.pairwise_cons.1 h
    rw [insertMember]
    split
    -- the new member takes the place of one of its name
    next heq => exact List.pairwise_cons.2 ⟨heq ▸ hfirst, hrest⟩
    next hne =>
      split
      next hlt =>
        -- the new member goes in front of a greater one
        refine List.pairwise_cons.2 ⟨fun m hm => ?_, h⟩
        obtain rfl | hm := List.mem_cons.1 hm
        · exact hlt
        · exact hlt.trans (hfirst m hm)
      next hge =>
        refine List.pairwise_cons.2 ⟨fun m hm => ?_, ih hrest⟩
        -- what stands behind the first member is the new one or has stood there before
        obtain rfl | ⟨-, hm⟩ := (mem_insertMember hrest).1 hm
        · exact lt_of_le_of_ne (not_lt.1 hge) (Ne.symm hne)
        · exact hfirst m hm

/-- Members of one name are the same, because names in order are not repeated. -/
theorem IsSorted.eq_of_mem {ms : List (String × Json)} (h : IsSorted ms) {name : String}
    {j j' : Json} (hj : (name, j) ∈ ms) (hj' : (name, j') ∈ ms) : j = j' := by
  induction ms with
  | nil => cases hj
  | cons first rest ih =>
    obtain ⟨hfirst, hrest⟩ := List.pairwise_cons.1 h
    obtain heq | hmem := List.mem_cons.1 hj <;> obtain heq' | hmem' := List.mem_cons.1 hj'
    · exact congrArg Prod.snd (heq.trans heq'.symm)
    · -- one of the two is the first member, and the other comes behind it with a greater name
      subst heq
      exact absurd (hfirst _ hmem') (lt_irrefl _)
    · subst heq'
      exact absurd (hfirst _ hmem) (lt_irrefl _)
    · exact ih hrest hmem hmem'

/-! ### Evaluating -/

/-- **What members become,** put one after the other among others: of every name the last one is
there, and of a name that none has, what was there before. -/
structure Sorts (members : List (Option String × Tree)) (before after : List (String × Json)) :
    Prop where
  isSorted : IsSorted after
  last : ∀ name t, lastOf? name members = some t → ∃ j, (name, j) ∈ after ∧ Renews j t
  rest : ∀ name, lastOf? name members = none → ∀ j, (name, j) ∈ after ↔ (name, j) ∈ before

theorem sorts_nil {before : List (String × Json)} (h : IsSorted before) :
    Sorts [] before before where
  isSorted := h
  last := fun _ _ hlast => nomatch hlast
  rest := fun _ _ _ => Iff.rfl

/-- One more member in front. -/
theorem Sorts.cons {members : List (Option String × Tree)} {before after : List (String × Json)}
    (hbefore : IsSorted before) {name : String} {t : Tree} {j : Json} (hj : Renews j t)
    (h : Sorts members (insertMember name j before) after) :
    Sorts ((some name, t) :: members) before after where
  isSorted := h.isSorted
  last := by
    intro other t' hlast
    rw [lastOf?] at hlast
    -- a later member of the name decides, and the object behind does not know of the first
    cases hrest : lastOf? other members with
    | some t'' =>
      rw [hrest] at hlast
      obtain rfl := Option.some.inj hlast
      exact h.last other _ hrest
    | none =>
      -- it is the member in front, and nothing has taken its place
      rw [hrest, Option.none_or] at hlast
      split at hlast
      next heq =>
        obtain rfl := Option.some.inj heq
        obtain rfl := Option.some.inj hlast
        exact ⟨j, (h.rest name hrest j).2 ((mem_insertMember hbefore).2 (.inl rfl)), hj⟩
      next => cases hlast
  rest := by
    intro other hlast j'
    -- a name with no member behind is untouched, unless it is the name of the first one
    rw [lastOf?, Option.or_eq_none_iff] at hlast
    obtain ⟨hrest, hfront⟩ := hlast
    have hne : other ≠ name := by
      rintro rfl
      rw [if_pos rfl] at hfront
      cases hfront
    rw [h.rest other hrest, mem_insertMember hbefore]
    simp [hne]

/-- What evaluating a part comes to, for every number of levels that the part fits in. Members are
added to those that have been read, so for them the statement speaks of all that came before. -/
def Part.IsKept : Part → Prop
  | .value t | .item t => ∀ n, t.Fits n → ∃ j, valueWithin? n t = some j ∧ Renews j t
  | .items ts => ∀ n, (∀ t ∈ ts, t.Fits n) →
    ∃ js, itemsWithin? n ts = some js ∧ List.Forall₂ Renews js ts
  | .member m => ∀ n, m.2.Fits n → ∃ j, valueWithin? n m.2 = some j ∧ Renews j m.2
  | .members ms => ∀ n, (∀ m ∈ ms, m.1.isSome) → (∀ m ∈ ms, m.2.Fits n) →
    ∀ before, IsSorted before → ∃ after, membersWithin? n before ms = some after ∧
      Sorts ms before after

/-! ### Objects -/

theorem exists_forall₂ {α β : Type} {r : α → β → Prop} {l : List α} (h : ∀ a ∈ l, ∃ b, r a b) :
    ∃ l', List.Forall₂ r l l' := by
  induction l with
  | nil => exact ⟨[], .nil⟩
  | cons a l ih =>
    obtain ⟨b, hb⟩ := h a List.mem_cons_self
    obtain ⟨l', hl'⟩ := ih fun a' ha' => h a' (List.mem_cons_of_mem a ha')
    exact ⟨b :: l', .cons hb hl'⟩

theorem exists_mem_right {α β : Type} {r : α → β → Prop} {l : List α} {l' : List β}
    (h : List.Forall₂ r l l') {a : α} (ha : a ∈ l) : ∃ b ∈ l', r a b := by
  induction h with
  | nil => cases ha
  | cons hr h ih =>
    obtain rfl | ha := List.mem_cons.1 ha
    · exact ⟨_, List.mem_cons_self, hr⟩
    · obtain ⟨b, hb, hab⟩ := ih ha
      exact ⟨b, List.mem_cons_of_mem _ hb, hab⟩

/-- Where no name comes twice, every member is the last of its name. -/
theorem lastOf?_eq_some_iff {ms : List (Option String × Tree)} (h : (ms.map Prod.fst).Nodup)
    {name : String} {t : Tree} : lastOf? name ms = some t ↔ (some name, t) ∈ ms := by
  induction ms generalizing t with
  | nil => simp [lastOf?]
  | cons m rest ih =>
    obtain ⟨hm, hrest⟩ := List.nodup_cons.1 h
    rw [lastOf?, List.mem_cons, Option.or_eq_some_iff, ih hrest]
    constructor
    · rintro (hmem | ⟨-, hfront⟩)
      · exact .inr hmem
      · split at hfront
        next heq => exact .inl (Prod.ext heq.symm (Option.some.inj hfront).symm)
        next => cases hfront
    · rintro (rfl | hmem)
      · -- the first member is the last of its name because no other has it
        have hnone : lastOf? name rest = none := by
          rw [Option.eq_none_iff_forall_ne_some]
          intro t' ht'
          exact hm (List.mem_map.2 ⟨_, (ih hrest).1 ht', rfl⟩)
        exact .inr ⟨hnone, if_pos rfl⟩
      · exact .inl hmem

/-- A member that is written for one that has been evaluated. -/
structure IsEntry (members : List (Option String × Tree)) (m : String × Json)
    (m' : Option String × Tree) : Prop where
  name : m'.1 = some m.1
  writes : Writes m.2.render.toList (.value m'.2)
  kept : ∃ t, lastOf? m.1 members = some t ∧ t.Keeps m'.2

/-- What is in the object after all members came from the last member of its name, since the object
was empty in the beginning. -/
theorem Sorts.exists_isEntry {members : List (Option String × Tree)}
    {after : List (String × Json)} (h : Sorts members [] after) :
    ∀ m ∈ after, ∃ m', IsEntry members m m' := by
  rintro ⟨name, j⟩ hmem
  cases hlast : lastOf? name members with
  | none => exact nomatch (h.rest name hlast j).1 hmem
  | some t =>
    obtain ⟨j', hmem', t', hwrites, hkeeps⟩ := h.last name t hlast
    obtain rfl := h.isSorted.eq_of_mem hmem hmem'
    exact ⟨(some name, t'), rfl, hwrites, t, hlast, hkeeps⟩

theorem map_fst_of_isEntry {members ms' : List (Option String × Tree)}
    {ms : List (String × Json)} (h : List.Forall₂ (IsEntry members) ms ms') :
    ms'.map Prod.fst = ms.map fun m => some m.1 := by
  induction h with
  | nil => rfl
  | cons hm h ih => rw [List.map_cons, List.map_cons, ih, hm.name]

theorem renderMembers_eq (ms : List (String × Json)) :
    renderMembers ms = ms.map fun m => quote m.1 ++ ":" ++ m.2.render := by
  induction ms with
  | nil => rfl
  | cons m ms ih => rw [renderMembers, ih, List.map_cons]

theorem renderItems_eq (js : List Json) : renderItems js = js.map render := by
  induction js with
  | nil => rfl
  | cons j js ih => rw [renderItems, ih, List.map_cons]

/-- **Of every name the last member is written.** -/
theorem Sorts.renews {members : List (Option String × Tree)} {after : List (String × Json)}
    (h : Sorts members [] after) : Renews (.object after) (.object members) := by
  obtain ⟨ms', hentries⟩ := exists_forall₂ h.exists_isEntry
  -- names in order do not come twice
  have hnodup : (ms'.map Prod.fst).Nodup := by
    rw [map_fst_of_isEntry hentries]
    refine List.pairwise_map.2 (h.isSorted.imp fun hlt heq => ?_)
    exact hlt.ne (Option.some.inj heq)
  refine ⟨.object ms', ?_, .object hnodup fun name => ?_⟩
  · -- the text is written member by member
    rw [render, renderMembers_eq]
    refine writes_object (List.forall₂_map_left_iff.2 (hentries.imp fun m m' hm => ?_))
    obtain ⟨name', t'⟩ := m'
    obtain rfl := hm.name
    exact writes_member m.1 hm.writes
  · -- and the tree that it writes has the last value of each name
    cases hlast : lastOf? name members with
    | some t =>
      obtain ⟨j, hmem, -⟩ := h.last name t hlast
      obtain ⟨⟨name', t'⟩, hmem', hm⟩ := exists_mem_right hentries hmem
      obtain rfl := hm.name
      obtain ⟨last, hlast', hkeeps⟩ := hm.kept
      obtain rfl := Option.some.inj (hlast.symm.trans hlast')
      rw [(lastOf?_eq_some_iff hnodup).2 hmem']
      exact .some hkeeps
    | none =>
      -- a name that no member has is not written either
      have hnone : lastOf? name ms' = none := by
        rw [Option.eq_none_iff_forall_ne_some]
        intro t' ht'
        obtain ⟨m, -, hm⟩ := exists_mem_right hentries.flip ((lastOf?_eq_some_iff hnodup).1 ht')
        obtain ⟨last, hlast', -⟩ := IsEntry.kept hm
        obtain rfl := Option.some.inj (IsEntry.name hm)
        cases hlast.symm.trans hlast'
      rw [hnone]
      exact .none

/-! ### The induction -/

/-- Items that are renewed one by one are an array that is renewed. -/
theorem exists_renews {items : List Tree} {js : List Json} (h : List.Forall₂ Renews js items) :
    Renews (.array js) (.array items) := by
  -- the trees that the items are written as, one after the other
  have hsplit : ∃ items', List.Forall₂ (fun (j : Json) t' => Writes j.render.toList (.value t'))
      js items' ∧ List.Forall₂ Tree.Keeps items items' := by
    induction h with
    | nil => exact ⟨[], .nil, .nil⟩
    | cons hj h ih =>
      obtain ⟨t', hwrites, hkeeps⟩ := hj
      obtain ⟨items', hitems, hkept⟩ := ih
      exact ⟨t' :: items', .cons hwrites hitems, .cons hkeeps hkept⟩
  obtain ⟨items', hitems, hkept⟩ := hsplit
  refine ⟨.array items', ?_, .array hkept⟩
  rw [render, renderItems_eq]
  exact writes_array (List.forall₂_map_left_iff.2 hitems)

/-- **Every part that fits is kept.** -/
theorem Writes.isKept {cs : List Char} {p : Part} (h : Writes cs p) : p.IsKept := by
  -- the induction is on how the part is written; objects carry along what was there before
  induction h with
  | null => exact fun n _ => ⟨.null, rfl, _, .null, .null⟩
  | true => exact fun n _ => ⟨.bool .true, rfl, _, .true, .bool .true⟩
  | false => exact fun n _ => ⟨.bool .false, rfl, _, .false, .bool .false⟩
  | positive hsign h =>
    intro n hfits
    cases hfits with
    -- a number is kept if it is finite, which is what fitting says of it
    | number _ hle =>
      obtain ⟨j, hvalue, n', hwrites, hkept⟩ := Numeral.exists_value? h.hasDigits hle
      exact ⟨j, hvalue, _, hwrites, .number hkept⟩
  | negative hsign h =>
    intro n hfits
    cases hfits with
    | number _ hle =>
      obtain ⟨j, hvalue, n', hwrites, hkept⟩ := Numeral.exists_value? h.hasDigits hle
      exact ⟨j, hvalue, _, hwrites, .number hkept⟩
  | string h =>
    intro n hfits
    -- the text is there, since one that has none does not fit
    generalize textOf? _ = text at hfits
    cases hfits with
    | string _ s => exact ⟨.string s, rfl, _, writes_quote s, .string _⟩
  | emptyArray h =>
    intro n hfits
    cases hfits with
    | array hitems => exact ⟨.array [], rfl, exists_renews .nil⟩
  | array h ih =>
    intro n hfits
    cases hfits with
    | array hitems =>
      obtain ⟨js, hjs, hrenews⟩ := ih _ hitems
      exact ⟨.array js, by rw [valueWithin?, hjs, Option.map_some], exists_renews hrenews⟩
  | emptyObject h =>
    intro n hfits
    cases hfits with
    | object hname hmembers =>
      exact ⟨.object [], rfl, (sorts_nil .nil).renews⟩
  | object h ih =>
    intro n hfits
    cases hfits with
    | object hname hmembers =>
      -- an object begins with no member
      obtain ⟨after, hafter, hsorts⟩ := ih _ hname hmembers [] .nil
      exact ⟨.object after, by rw [valueWithin?, hafter, Option.map_some], hsorts.renews⟩
  | item hbefore h hafter ih => exact ih
  | lastItem h ih =>
    intro n hfits
    obtain ⟨j, hj, hrenews⟩ := ih n (hfits _ List.mem_cons_self)
    exact ⟨[j], by simp [itemsWithin?, hj], .cons hrenews .nil⟩
  | moreItems h hmore ih ihmore =>
    intro n hfits
    obtain ⟨j, hj, hrenews⟩ := ih n (hfits _ List.mem_cons_self)
    obtain ⟨js, hjs, hmore⟩ := ihmore n fun t ht => hfits t (List.mem_cons_of_mem _ ht)
    exact ⟨j :: js, by rw [itemsWithin?, hj, hjs], .cons hrenews hmore⟩
  | member hbefore hname hafter h ih => exact ih
  | @lastMember cs m h ih =>
    intro n hname hfits before hbefore
    obtain ⟨j, hj, hrenews⟩ := ih n (hfits _ List.mem_cons_self)
    obtain ⟨name, hsome⟩ := Option.isSome_iff_exists.1 (hname m List.mem_cons_self)
    -- a name is there, since a member without one does not fit
    obtain ⟨_, t⟩ := m
    obtain rfl := hsome
    exact ⟨insertMember name j before, by rw [membersWithin?, hj]; rfl,
      .cons hbefore hrenews (sorts_nil (isSorted_insertMember name j hbefore))⟩
  | @moreMembers cs more m ms h hmore ih ihmore =>
    intro n hname hfits before hbefore
    obtain ⟨j, hj, hrenews⟩ := ih n (hfits _ List.mem_cons_self)
    obtain ⟨name, hsome⟩ := Option.isSome_iff_exists.1 (hname m List.mem_cons_self)
    obtain ⟨_, t⟩ := m
    obtain rfl := hsome
    obtain ⟨after, hafter, hsorts⟩ := ihmore n (fun m hm => hname m (List.mem_cons_of_mem _ hm))
      (fun m hm => hfits m (List.mem_cons_of_mem _ hm)) _ (isSorted_insertMember name j hbefore)
    exact ⟨after, by rw [membersWithin?, hj]; exact hafter, .cons hbefore hrenews hsorts⟩

/-- **A JSON text is kept** if its tree fits. -/
theorem exists_value? {s : String} {t : Tree} (h : IsText s t) (hfits : t.Fits deepestLevel) :
    ∃ j, value? s = some j ∧ ∃ t', IsText j.render t' ∧ t.Keeps t' := by
  obtain ⟨j, hvalue, t', hwrites, hkeeps⟩ := Writes.isKept h deepestLevel hfits
  exact ⟨j, by rw [value?, parse?_of_isText h, Option.bind_some, hvalue], t', writes_item hwrites,
    hkeeps⟩

end QueryGateway.Json
