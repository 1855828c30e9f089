import QueryGateway.Sql.ObjectName

/-!
# The grammar of names

What the recognisers of names accept, said without them. A name of an object is one to three
components with points between them (`IsObjectName`), and a component is a plain identifier or a
body in quotes, not empty, in which quotes are doubled (`IsComponent`). A name of an argument is a
plain identifier without dollars (`IsArgument`).

`isObjectName_iff` and `isArgumentName_iff` say that the recognisers accept these and nothing else.
The recogniser of components takes as much as it can and never takes anything back. That is right
because a point, or nothing, follows a component, and neither could have been part of it: a plain
identifier ends before a point (`skipComponent?_append`), and a quote that no second one follows is
the closing one (`skipQuotedBody?_append`).
-/

namespace QueryGateway.Sql

/-! ### The grammar -/

/-- The characters of a body, with quotes doubled. -/
def doubled (body : List Char) : List Char :=
  body.flatMap fun c => if c = '"' then ['"', '"'] else [c]

/-- **A component of a name:** an identifier as it stands, or any characters in quotes, where a
quote is doubled. -/
inductive IsComponent : List Char → Prop where
  /-- A plain identifier. -/
  | plain (c : Char) (cs : List Char) (hc : isNameStart c = true)
      (hcs : ∀ d ∈ cs, isNameChar d = true) : IsComponent (c :: cs)
  /-- A body in quotes. -/
  | quoted (body : List Char) (h : body ≠ []) : IsComponent ('"' :: (doubled body ++ ['"']))

/-- **So many components at most,** and one at least, with points between them. -/
def IsJoined (limit : Nat) (cs : List Char) : Prop :=
  ∃ parts : List (List Char), parts ≠ [] ∧ parts.length ≤ limit ∧
    (∀ part ∈ parts, IsComponent part) ∧ cs = ['.'].intercalate parts

/-- **The name of an object:** up to three components, for a database, a schema and the object
itself. -/
def IsObjectName (cs : List Char) : Prop :=
  IsJoined 3 cs

/-- **The name of an argument.** No dollar may stand in it, unlike in the name of an object, and it
is never quoted. -/
inductive IsArgument : List Char → Prop where
  | plain (c : Char) (cs : List Char) (hc : isNameStart c = true)
      (hcs : ∀ d ∈ cs, (d.isAlphanum || d = '_') = true) : IsArgument (c :: cs)

/-! ### Bodies in quotes -/

/-- A quote that no second one follows closes the body. -/
theorem skipQuotedBody?_quote {rest : List Char} (h : rest.head? ≠ some '"') :
    skipQuotedBody? ('"' :: rest) = some rest := by
  cases rest with
  | nil => rfl
  | cons d rest =>
    have hd : d ≠ '"' := fun hd => h (congrArg some hd)
    simp [skipQuotedBody?, hd]

theorem skipQuotedBody?_cons {c : Char} (h : c ≠ '"') (cs : List Char) :
    skipQuotedBody? (c :: cs) = skipQuotedBody? cs := by
  simp [skipQuotedBody?, h]

/-- **A body is taken with its closing quote.** -/
theorem skipQuotedBody?_append (body : List Char) {rest : List Char} (h : rest.head? ≠ some '"') :
    skipQuotedBody? (doubled body ++ '"' :: rest) = some rest := by
  induction body with
  | nil => exact skipQuotedBody?_quote h
  | cons c body ih =>
    rw [doubled, List.flatMap_cons]
    by_cases hc : c = '"'
    · rw [if_pos hc]
      exact ih
    · rw [if_neg hc]
      exact (skipQuotedBody?_cons hc _).trans ih

/-- What is taken is a body with its closing quote. -/
theorem exists_body_of_skipQuotedBody? {cs : List Char} :
    ∀ rest, skipQuotedBody? cs = some rest → ∃ body, cs = doubled body ++ '"' :: rest := by
  -- by the characters of the body: a doubled quote and any other go on, a single one closes
  fun_induction skipQuotedBody? cs with
  | case1 => exact fun rest h => by cases h
  | case2 =>
    intro rest h
    cases h
    exact ⟨[], rfl⟩
  | case3 cs ih =>
    intro rest h
    obtain ⟨body, hbody⟩ := ih rest h
    exact ⟨'"' :: body, by rw [hbody]; rfl⟩
  | case4 cs _ _ =>
    intro rest h
    cases h
    exact ⟨[], rfl⟩
  | case5 c cs _ _ hc ih =>
    intro rest h
    obtain ⟨body, hbody⟩ := ih rest h
    refine ⟨c :: body, ?_⟩
    rw [doubled, List.flatMap_cons, if_neg (by simpa using hc), hbody]
    rfl

/-! ### Components -/

theorem isNameStart_quote : isNameStart '"' = false := by decide

theorem isNameChar_point : isNameChar '.' = false := by decide

/-- **A component is taken** where a point or nothing follows it. -/
theorem skipComponent?_append {part rest : List Char} (h : IsComponent part)
    (hrest : rest = [] ∨ rest.head? = some '.') :
    skipComponent? (part ++ rest) = some rest := by
  -- a quote behind a quoted component would make the closing one part of the body
  have hquote : rest.head? ≠ some '"' := by
    rcases hrest with rfl | hrest
    · exact fun h => by cases h
    · rw [hrest]
      decide
  cases h with
  | plain c cs hc hcs =>
    -- the identifier takes nothing of what follows
    have hdrop : rest.dropWhile isNameChar = rest := by
      rcases hrest with rfl | hrest
      · rfl
      · obtain ⟨rest, rfl⟩ := List.head?_eq_some_iff.1 hrest
        exact List.dropWhile_cons_of_neg (by rw [isNameChar_point]; decide)
    have hne : c ≠ '"' := by
      rintro rfl
      rw [isNameStart_quote] at hc
      cases hc
    rw [List.cons_append, skipComponent?]
    · rw [if_pos hc, List.dropWhile_append_of_pos hcs, hdrop]
    · exact hne
  -- the closing quote is single, as no quote follows it
  | quoted body h =>
    have hskip := skipQuotedBody?_append body hquote
    cases body with
    | nil => exact absurd rfl h
    | cons c body =>
      have htext : '"' :: (doubled (c :: body) ++ ['"']) ++ rest =
          '"' :: (doubled (c :: body) ++ '"' :: rest) := by simp
      rw [htext]
      -- the body may begin with a pair, which is told from an empty body by its second quote
      rw [doubled, List.flatMap_cons] at hskip ⊢
      by_cases hc : c = '"'
      · rw [if_pos hc] at hskip ⊢
        exact hskip
      · rw [if_neg hc] at hskip ⊢
        rw [List.singleton_append, List.cons_append] at hskip ⊢
        rw [skipComponent?]
        · exact hskip
        · simp [hc]
        · simp [hc]

/-- What is taken is a component. -/
theorem exists_component_of_skipComponent? {cs rest : List Char}
    (h : skipComponent? cs = some rest) : ∃ part, IsComponent part ∧ cs = part ++ rest := by
  unfold skipComponent? at h
  split at h
  · cases h
  · -- a quoted component, whose body is not empty
    -- two quotes begin a body only if a third one follows
    split at h
    · next cs =>
      obtain ⟨body, rfl⟩ := exists_body_of_skipQuotedBody? rest h
      exact ⟨_, .quoted ('"' :: body) (List.cons_ne_nil _ _), by simp [doubled]⟩
    · cases h
    · next cs _ hne =>
      obtain ⟨body, rfl⟩ := exists_body_of_skipQuotedBody? rest h
      refine ⟨_, .quoted body ?_, by simp⟩
      rintro rfl
      exact hne _ rfl
  · -- an identifier, which is as long as there are characters of names
    next c cs _ =>
    split at h
    · next hc =>
      obtain rfl := Option.some.inj h
      exact ⟨c :: cs.takeWhile isNameChar, .plain c _ hc (List.all_eq_true.1 List.all_takeWhile),
        by rw [List.cons_append, List.takeWhile_append_dropWhile]⟩
    · cases h

/-! ### Names -/

/-- The components behind the first. -/
theorem isJoined_cons_iff {limit : Nat} {cs : List Char} :
    IsJoined (limit + 1) cs ↔ ∃ part rest, IsComponent part ∧ cs = part ++ rest ∧
      (rest = [] ∨ ∃ rest', rest = '.' :: rest' ∧ IsJoined limit rest') := by
  constructor
  · -- by the number of parts: a single one, or one with a point and more parts behind it
    rintro ⟨parts, hne, hlen, hparts, rfl⟩
    match parts with
    | [] => exact absurd rfl hne
    | [part] =>
      exact ⟨part, [], hparts part List.mem_cons_self, by simp [List.intercalate], Or.inl rfl⟩
    | part :: next :: parts =>
      rw [List.length_cons] at hlen
      refine ⟨part, '.' :: ['.'].intercalate (next :: parts), hparts part List.mem_cons_self,
        by simp [List.intercalate], Or.inr ⟨_, rfl, next :: parts, List.cons_ne_nil _ _, by omega,
          fun p hp => hparts p (List.mem_cons_of_mem _ hp), rfl⟩⟩
  · -- back: with nothing behind it the part is alone, and behind a point the others follow
    rintro ⟨part, rest, hpart, rfl, rfl | ⟨rest', rfl, parts, hne, hlen, hparts, rfl⟩⟩
    · refine ⟨[part], List.cons_ne_nil _ _, by simp, ?_, by simp [List.intercalate]⟩
      intro p hp
      rwa [List.mem_singleton.1 hp]
    · cases parts with
      | nil => exact absurd rfl hne
      | cons next parts =>
        refine ⟨part :: next :: parts, List.cons_ne_nil _ _, by simpa using hlen, ?_,
          by simp [List.intercalate]⟩
        intro p hp
        rcases List.mem_cons.1 hp with rfl | hp
        · exact hpart
        · exact hparts p hp

theorem not_isJoined_zero (cs : List Char) : ¬ IsJoined 0 cs := by
  rintro ⟨parts, hne, hlen, -, -⟩
  exact hne (List.length_eq_zero_iff.1 (Nat.le_zero.1 hlen))

/-- One round of the recogniser: a component, and behind a point what is still allowed. -/
theorem isNameOf_eq_true_iff {further : Nat} {cs : List Char} :
    isNameOf further cs = true ↔ ∃ part rest, IsComponent part ∧ cs = part ++ rest ∧
      (rest = [] ∨ ∃ rest' n, rest = '.' :: rest' ∧ further = n + 1 ∧ isNameOf n rest' = true) := by
  constructor
  · -- what the component leaves decides: nothing, a point, or a character that no name has there
    intro h
    rw [isNameOf] at h
    split at h
    · cases h
    · next hskip =>
      obtain ⟨part, hpart, hcs⟩ := exists_component_of_skipComponent? hskip
      exact ⟨part, [], hpart, hcs, Or.inl rfl⟩
    · next rest hskip =>
      obtain ⟨part, hpart, hcs⟩ := exists_component_of_skipComponent? hskip
      cases further with
      | zero => cases h
      | succ n => exact ⟨part, '.' :: rest, hpart, hcs, Or.inr ⟨rest, n, rfl, rfl, h⟩⟩
    · cases h
  · -- the component is taken as it is, since nothing or a point follows it
    rintro ⟨part, rest, hpart, rfl, hrest⟩
    rw [isNameOf]
    rcases hrest with rfl | ⟨rest, n, rfl, rfl, h⟩
    · rw [skipComponent?_append hpart (Or.inl rfl)]
    · rw [skipComponent?_append hpart (Or.inr rfl)]
      exact h

/-- **The recogniser goes through the components.** -/
theorem isNameOf_iff {further : Nat} {cs : List Char} :
    isNameOf further cs = true ↔ IsJoined (further + 1) cs := by
  -- on how many components may still come, which both sides count down
  induction further generalizing cs with
  | zero =>
    rw [isNameOf_eq_true_iff, isJoined_cons_iff]
    refine exists_congr fun part => exists_congr fun rest => and_congr_right fun _ =>
      and_congr_right fun _ => or_congr_right ⟨?_, ?_⟩
    · rintro ⟨rest', n, -, hn, -⟩
      cases hn
    · rintro ⟨rest', -, h⟩
      exact absurd h (not_isJoined_zero rest')
  | succ n ih =>
    rw [isNameOf_eq_true_iff, isJoined_cons_iff]
    refine exists_congr fun part => exists_congr fun rest => and_congr_right fun _ =>
      and_congr_right fun _ => or_congr_right ⟨?_, ?_⟩
    · rintro ⟨rest', m, hrest, hm, h⟩
      obtain rfl := Nat.succ.inj hm
      exact ⟨rest', hrest, ih.1 h⟩
    · rintro ⟨rest', hrest, h⟩
      exact ⟨rest', n, hrest, rfl, ih.2 h⟩

/-- **Names of objects are what the grammar says.** -/
theorem isObjectName_iff {cs : List Char} : isObjectName cs = true ↔ IsObjectName cs :=
  isNameOf_iff

instance (cs : List Char) : Decidable (IsObjectName cs) :=
  decidable_of_iff (isObjectName cs = true) isObjectName_iff

/-- **Names of arguments are what the grammar says.** -/
theorem isArgumentName_iff {cs : List Char} : isArgumentName cs = true ↔ IsArgument cs := by
  constructor
  · intro h
    cases cs with
    | nil => cases h
    | cons c cs =>
      obtain ⟨hc, hcs⟩ := Bool.and_eq_true_iff.1 h
      exact .plain c cs hc (List.all_eq_true.1 hcs)
  · rintro ⟨c, cs, hc, hcs⟩
    exact Bool.and_eq_true_iff.2 ⟨hc, List.all_eq_true.2 hcs⟩

instance (cs : List Char) : Decidable (IsArgument cs) :=
  decidable_of_iff (isArgumentName cs = true) isArgumentName_iff

end QueryGateway.Sql
