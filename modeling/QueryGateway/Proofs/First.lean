/-!
# The first of its kind

Where several elements of a list have a property, the first of them is often the one that counts:
the first parameter that lacks a value, the first row that matches. `IsFirst` says which one it is
without searching for it; searching finds it (`find?_eq_some_iff_isFirst`), and there is never a
second (`IsFirst.unique`).

In a history the last one counts (`IsLast`), which is the first one seen from the end.
-/

namespace QueryGateway

variable {α β : Type} {P Q : α → Prop} {a b : α} {l : List α}

/-- **The first element with a property,** told by what stands before it. An element that comes
several times is meant at its first place. -/
def IsFirst (P : α → Prop) (l : List α) (a : α) : Prop :=
  ∃ before after, l = before ++ a :: after ∧ P a ∧ ∀ b ∈ before, ¬ P b

namespace IsFirst

theorem mem (h : IsFirst P l a) : a ∈ l := by
  obtain ⟨before, after, rfl, -, -⟩ := h
  exact List.mem_append_right before List.mem_cons_self

theorem holds (h : IsFirst P l a) : P a := by
  obtain ⟨before, after, -, ha, -⟩ := h
  exact ha

/-- Only the elements of the list matter. -/
theorem congr (hPQ : ∀ b ∈ l, P b ↔ Q b) (h : IsFirst P l a) : IsFirst Q l a := by
  obtain ⟨before, after, rfl, ha, hbefore⟩ := h
  refine ⟨before, after, rfl, (hPQ a (by simp)).1 ha, fun b hb hQ => ?_⟩
  exact hbefore b hb ((hPQ b (List.mem_append_left _ hb)).2 hQ)

end IsFirst

theorem not_isFirst_nil : ¬ IsFirst P [] a := by
  rintro ⟨before, after, h, -, -⟩
  cases before <;> cases h

/-- The head is the first, or it has not the property and the first comes later. -/
theorem isFirst_cons_iff : IsFirst P (b :: l) a ↔ P b ∧ a = b ∨ ¬ P b ∧ IsFirst P l a := by
  constructor
  · rintro ⟨before, after, h, ha, hbefore⟩
    -- either nothing stands before it, or the head does and has not the property
    cases before with
    | nil =>
      obtain ⟨rfl, -⟩ := List.cons.inj h
      exact Or.inl ⟨ha, rfl⟩
    | cons c before =>
      obtain ⟨rfl, rfl⟩ := List.cons.inj h
      exact Or.inr ⟨hbefore b List.mem_cons_self, before, after, rfl, ha,
        fun c hc => hbefore c (List.mem_cons_of_mem b hc)⟩
  · rintro (⟨hb, rfl⟩ | ⟨hb, before, after, rfl, ha, hbefore⟩)
    · exact ⟨[], l, rfl, hb, fun c hc => absurd hc List.not_mem_nil⟩
    · refine ⟨b :: before, after, rfl, ha, fun c hc => ?_⟩
      rcases List.mem_cons.1 hc with rfl | hc
      · exact hb
      · exact hbefore c hc

/-- There is a first one if there is one. -/
theorem exists_isFirst_iff : (∃ a, IsFirst P l a) ↔ ∃ a ∈ l, P a := by
  constructor
  · rintro ⟨a, ha⟩
    exact ⟨a, ha.mem, ha.holds⟩
  · intro h
    induction l with
    | nil =>
      obtain ⟨a, ha, -⟩ := h
      cases ha
    | cons b l ih =>
      -- the head is the first if it has the property, and otherwise the rest has one
      by_cases hb : P b
      · exact ⟨b, isFirst_cons_iff.2 (Or.inl ⟨hb, rfl⟩)⟩
      · obtain ⟨a, ha, hP⟩ := h
        have hmem : a ∈ l := (List.mem_cons.1 ha).resolve_left fun hab => hb (hab ▸ hP)
        obtain ⟨c, hc⟩ := ih ⟨a, hmem, hP⟩
        exact ⟨c, isFirst_cons_iff.2 (Or.inr ⟨hb, hc⟩)⟩

/-- The first one comes before the end, or it is the end. -/
theorem isFirst_append_singleton_iff :
    IsFirst P (l ++ [b]) a ↔ IsFirst P l a ∨ (∀ c ∈ l, ¬ P c) ∧ P b ∧ a = b := by
  induction l with
  | nil =>
    rw [List.nil_append, isFirst_cons_iff]
    simp [not_isFirst_nil]
  | cons c l ih =>
    rw [List.cons_append, isFirst_cons_iff, isFirst_cons_iff, ih, List.forall_mem_cons]
    -- an element that has the property is first whatever comes after it
    by_cases hc : P c <;> simp [hc]

/-- An element that has not the property is never missed. -/
theorem isFirst_append_cons_iff {before after : List α} (hb : ¬ P b) :
    IsFirst P (before ++ b :: after) a ↔ IsFirst P (before ++ after) a := by
  induction before with
  | nil =>
    rw [List.nil_append, List.nil_append, isFirst_cons_iff]
    simp [hb]
  | cons c before ih => rw [List.cons_append, List.cons_append, isFirst_cons_iff,
      isFirst_cons_iff, ih]

/-- **There is no second first one.** -/
theorem IsFirst.unique (ha : IsFirst P l a) (hb : IsFirst P l b) : a = b := by
  induction l with
  | nil => exact absurd ha not_isFirst_nil
  | cons c l ih =>
    -- both are the head or both are not, by whether the head has the property
    rcases isFirst_cons_iff.1 ha with ⟨hc, rfl⟩ | ⟨hc, ha⟩
    · rcases isFirst_cons_iff.1 hb with ⟨-, rfl⟩ | ⟨hc', -⟩
      · rfl
      · exact absurd hc hc'
    · rcases isFirst_cons_iff.1 hb with ⟨hc', -⟩ | ⟨-, hb⟩
      · exact absurd hc' hc
      · exact ih ha hb

/-- The first image with a property is the image of the first element whose image has it. -/
theorem isFirst_map_iff {f : β → α} {l : List β} :
    IsFirst P (l.map f) a ↔ ∃ b, IsFirst (fun b => P (f b)) l b ∧ a = f b := by
  induction l with
  | nil =>
    refine ⟨fun h => absurd h not_isFirst_nil, ?_⟩
    rintro ⟨b, h, -⟩
    exact absurd h not_isFirst_nil
  | cons b l ih =>
    rw [List.map_cons, isFirst_cons_iff, ih]
    constructor
    · rintro (⟨hb, rfl⟩ | ⟨hb, c, hc, rfl⟩)
      · exact ⟨b, isFirst_cons_iff.2 (Or.inl ⟨hb, rfl⟩), rfl⟩
      · exact ⟨c, isFirst_cons_iff.2 (Or.inr ⟨hb, hc⟩), rfl⟩
    · rintro ⟨c, hc, rfl⟩
      rcases isFirst_cons_iff.1 hc with ⟨hb, rfl⟩ | ⟨hb, hc⟩
      · exact Or.inl ⟨hb, rfl⟩
      · exact Or.inr ⟨hb, c, hc, rfl⟩

/-- Searching finds the first one. -/
theorem find?_eq_some_iff_isFirst {p : α → Bool} :
    l.find? p = some a ↔ IsFirst (fun b => p b = true) l a := by
  rw [List.find?_eq_some_iff_append]
  constructor
  · rintro ⟨ha, before, after, hl, hbefore⟩
    exact ⟨before, after, hl, ha, fun b hb => by simpa using hbefore b hb⟩
  · rintro ⟨before, after, hl, ha, hbefore⟩
    exact ⟨ha, before, after, hl, fun b hb => by simpa using hbefore b hb⟩

/-- **The last element with a property,** told by what stands behind it. -/
def IsLast (P : α → Prop) (l : List α) (a : α) : Prop :=
  ∃ before after, l = before ++ a :: after ∧ P a ∧ ∀ b ∈ after, ¬ P b

theorem isLast_iff_isFirst_reverse : IsLast P l a ↔ IsFirst P l.reverse a := by
  constructor
  · rintro ⟨before, after, rfl, ha, hafter⟩
    refine ⟨after.reverse, before.reverse, by simp, ha, fun b hb => ?_⟩
    exact hafter b (List.mem_reverse.1 hb)
  · rintro ⟨before, after, hl, ha, hbefore⟩
    have hsplit : l = after.reverse ++ a :: before.reverse := by
      rw [← List.reverse_reverse l, hl]
      simp
    exact ⟨after.reverse, before.reverse, hsplit, ha, fun b hb => hbefore b (List.mem_reverse.1 hb)⟩

theorem not_isLast_nil : ¬ IsLast P [] a := by
  rw [isLast_iff_isFirst_reverse]
  exact not_isFirst_nil

/-- The end is the last one, or it has not the property and the last one comes earlier. -/
theorem isLast_append_singleton_iff :
    IsLast P (l ++ [b]) a ↔ P b ∧ a = b ∨ ¬ P b ∧ IsLast P l a := by
  simp only [isLast_iff_isFirst_reverse, List.reverse_append, List.reverse_singleton,
    List.singleton_append, isFirst_cons_iff]

instance [DecidableEq α] [DecidablePred P] : Decidable (IsFirst P l a) :=
  decidable_of_iff (l.find? (P ·) = some a) <| by
    simp only [find?_eq_some_iff_isFirst, decide_eq_true_eq]

end QueryGateway
