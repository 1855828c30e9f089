import QueryGateway.Text.Split

/-!
# Parts between separators

What splitting a text gives. A text without separator is its own part (`splitChars_of_not_mem`), and
in front of a separator stands the first part (`splitChars_append_cons`). What is added at the end
belongs to the last part, which is an end of the text (`splitChars_append`,
`exists_splitChars_concat`). `mem_splitChars_iff` puts these together into what a part is: a run
without separators that reaches on both sides to a separator or to the end of the text (`IsPart`).
-/

namespace QueryGateway.Text

variable {separator : Char} {cs part rest : List Char}

theorem splitChars_of_not_mem (h : separator ∉ cs) : splitChars separator cs = [cs] := by
  induction cs with
  | nil => rfl
  | cons c cs ih =>
    rw [List.mem_cons, not_or] at h
    rw [splitChars, if_neg (Ne.symm h.1), ih h.2]

theorem splitChars_append_cons (h : separator ∉ part) (rest : List Char) :
    splitChars separator (part ++ separator :: rest) = part :: splitChars separator rest := by
  induction part with
  | nil => rw [List.nil_append, splitChars, if_pos rfl]
  | cons c part ih =>
    rw [List.mem_cons, not_or] at h
    rw [List.cons_append, splitChars, if_neg (Ne.symm h.1), ih h.2]

theorem splitChars_ne_nil (separator : Char) (cs : List Char) : splitChars separator cs ≠ [] := by
  cases cs with
  | nil => exact List.cons_ne_nil _ _
  | cons c cs =>
    rw [splitChars]
    split
    · exact List.cons_ne_nil _ _
    · split <;> exact List.cons_ne_nil _ _

/-- **What is added behind a text** without a separator in it belongs to the last part. -/
theorem splitChars_append {suffix last : List Char} {init : List (List Char)}
    (h : separator ∉ suffix) (hsplit : splitChars separator cs = init ++ [last]) :
    splitChars separator (cs ++ suffix) = init ++ [last ++ suffix] := by
  induction cs generalizing init last with
  | nil =>
    -- one empty part, which is the last one
    obtain ⟨rfl, rfl⟩ : init = [] ∧ last = [] := by
      cases init <;> simp_all [splitChars]
    exact splitChars_of_not_mem h
  | cons c cs ih =>
    rw [splitChars] at hsplit
    rw [List.cons_append, splitChars]
    split at hsplit
    next hc =>
      -- a separator: the part in front is empty, and the last part is behind it
      rw [if_pos hc]
      cases init with
      | nil => exact absurd (List.cons.inj hsplit).2 (splitChars_ne_nil separator cs)
      | cons part init =>
        obtain ⟨rfl, hrest⟩ := List.cons.inj hsplit
        rw [ih hrest]
        rfl
    next hc =>
      rw [if_neg hc]
      -- the character goes to the first part, which may be the last one too
      cases hparts : splitChars separator cs with
      | nil => exact absurd hparts (splitChars_ne_nil separator cs)
      | cons part parts =>
        simp only [hparts] at hsplit
        cases init with
        | nil =>
          obtain ⟨rfl, rfl⟩ := List.cons.inj hsplit
          have hrest : splitChars separator cs = [] ++ [part] := hparts
          rw [ih hrest]
          rfl
        | cons first init =>
          obtain ⟨rfl, rfl⟩ := List.cons.inj hsplit
          have hrest : splitChars separator cs = (part :: init) ++ [last] := hparts
          rw [ih hrest]
          rfl

/-- **The last part** is an end of the text. -/
theorem exists_splitChars_concat (separator : Char) (cs : List Char) :
    ∃ init last, splitChars separator cs = init ++ [last] ∧ last <:+ cs := by
  induction hlength : cs.length using Nat.strongRecOn generalizing cs with
  | ind n ih =>
    by_cases hmem : separator ∈ cs
    · -- the last part is that of what follows the first separator
      obtain ⟨first, rest, rfl, hfirst⟩ := List.eq_append_cons_of_mem hmem
      have hshorter : rest.length < n := by
        rw [← hlength, List.length_append, List.length_cons]
        omega
      obtain ⟨init, last, hsplit, hlast⟩ := ih rest.length hshorter rest rfl
      refine ⟨first :: init, last, ?_, ?_⟩
      · rw [splitChars_append_cons hfirst, hsplit, List.cons_append]
      · exact hlast.trans ((List.suffix_cons _ _).trans (List.suffix_append _ _))
    · exact ⟨[], cs, splitChars_of_not_mem hmem, List.suffix_rfl⟩

/-- **A part of a text:** it has no separator, and stands between two of them or the ends. -/
def IsPart (separator : Char) (part cs : List Char) : Prop :=
  separator ∉ part ∧ ∃ before after, cs = before ++ part ++ after ∧
    (before = [] ∨ before.getLast? = some separator) ∧
    (after = [] ∨ after.head? = some separator)

/-- The only part of a text without separator is the text. -/
theorem isPart_iff_of_not_mem (h : separator ∉ cs) : IsPart separator part cs ↔ part = cs := by
  constructor
  · -- a separator on either side would be one of the text
    rintro ⟨-, before, after, rfl, hbefore, hafter⟩
    rw [List.mem_append, List.mem_append, not_or, not_or] at h
    have hnil : before = [] :=
      hbefore.resolve_right fun hlast => h.1.1 (List.mem_of_getLast? hlast)
    have hnil' : after = [] :=
      hafter.resolve_right fun hhead => h.2 (List.mem_of_head? hhead)
    rw [hnil, hnil', List.nil_append, List.append_nil]
  · rintro rfl
    exact ⟨h, [], [], by rw [List.nil_append, List.append_nil], .inl rfl, .inl rfl⟩

/-- What stands in front of the first separator is a part, and the others are those of the rest. -/
theorem isPart_append_cons_iff {first : List Char} (h : separator ∉ first) :
    IsPart separator part (first ++ separator :: rest) ↔
      part = first ∨ IsPart separator part rest := by
  constructor
  · rintro ⟨hpart, before, after, hsplit, hbefore, hafter⟩
    rcases hbefore with rfl | hlast
    · -- the part begins the text, and the first separator ends it
      left
      rw [List.nil_append] at hsplit
      -- the part ends with the text or at a separator, which can only be the first one
      rcases hafter with rfl | hhead
      · rw [List.append_nil] at hsplit
        rw [← hsplit] at hpart
        exact absurd (List.mem_append_right _ List.mem_cons_self) hpart
      · obtain ⟨more, rfl⟩ := List.head?_eq_some_iff.1 hhead
        have hsplits := congrArg (splitChars separator) hsplit
        rw [splitChars_append_cons h, splitChars_append_cons hpart] at hsplits
        exact (List.head_eq_of_cons_eq hsplits).symm
    · -- the text before the part takes in the first separator
      right
      rw [List.append_assoc] at hsplit
      -- the text before the part ends behind the first separator
      rcases List.append_eq_append_iff.1 hsplit with ⟨more, hmore, hrest⟩ | ⟨more, hmore, hrest⟩
      · cases more with
        | nil =>
          rw [List.append_nil] at hmore
          rw [hmore] at hlast
          exact absurd (List.mem_of_getLast? hlast) h
        | cons c more =>
          obtain ⟨rfl, rfl⟩ := List.cons.inj hrest
          refine ⟨hpart, more, after, (List.append_assoc _ _ _).symm, ?_, hafter⟩
          rw [hmore] at hlast
          cases more with
          | nil => exact .inl rfl
          | cons d more => exact .inr (by simpa using hlast)
      · -- or it ends inside the first part, which has no separator to end it
        rw [hmore] at h
        rw [List.mem_append, not_or] at h
        exact absurd (List.mem_of_getLast? hlast) h.1
  · rintro (rfl | ⟨hpart, before, after, rfl, hbefore, hafter⟩)
    · exact ⟨h, [], separator :: rest, rfl, .inl rfl, .inr rfl⟩
    · -- a part of the rest is a part behind the first separator
      refine ⟨hpart, first ++ separator :: before, after, by simp, .inr ?_, hafter⟩
      rcases hbefore with rfl | hlast
      · simp
      · rw [List.getLast?_append, List.getLast?_cons, hlast]
        rfl

/-- **Splitting gives the parts** of the text, and nothing else. -/
theorem mem_splitChars_iff : part ∈ splitChars separator cs ↔ IsPart separator part cs := by
  induction hlength : cs.length using Nat.strongRecOn generalizing cs with
  | ind n ih =>
    by_cases hmem : separator ∈ cs
    · -- the first part, and by induction those of the rest
      obtain ⟨first, rest, rfl, hfirst⟩ := List.eq_append_cons_of_mem hmem
      have hrest : part ∈ splitChars separator rest ↔ IsPart separator part rest := by
        refine ih rest.length ?_ rfl
        rw [← hlength, List.length_append, List.length_cons]
        omega
      rw [splitChars_append_cons hfirst, List.mem_cons, isPart_append_cons_iff hfirst, hrest]
    · -- a text without separators is its only part
      rw [splitChars_of_not_mem hmem, List.mem_singleton, isPart_iff_of_not_mem hmem]

end QueryGateway.Text
