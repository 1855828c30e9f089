import Mathlib.Data.List.Forall2
import QueryGateway.Json.Value
import QueryGateway.Proofs.Json.Grammar

/-!
# Writing JSON

The compact texts of strings, arrays and objects are JSON texts: a string writes itself
(`exists_units_quote`), and texts of items or members with commas between them write the list of
what they write (`writes_array`, `writes_object`).
-/

namespace QueryGateway.Json

open Text

/-! ### Strings -/

/-- A control character is no half of a character. -/
theorem charsOfUnits?_code {n : Nat} (hn : n < 0x20) (units : List CodeUnit) :
    charsOfUnits? (.code n :: units) = (charsOfUnits? units).map (Char.ofNat n :: ·) := by
  have hvalid : n.isValidChar := .inl (by omega)
  rw [charsOfUnits?.eq_def]
  split
  next heq => cases heq
  next heq => cases heq
  next high low rest heq =>
    obtain ⟨hcode, rfl⟩ := List.cons.inj heq
    obtain rfl := CodeUnit.code.inj hcode
    -- a high surrogate is needed for a pair, and those are far above
    have hpair : pairedChar? n low = none := by
      rw [pairedChar?, if_neg]
      simp only [Bool.and_eq_true, decide_eq_true_eq]
      omega
    rw [hpair]
    dsimp only
    rw [if_pos hvalid]
  next code rest hnext heq =>
    obtain ⟨hcode, rfl⟩ := List.cons.inj heq
    obtain rfl := CodeUnit.code.inj hcode
    rw [if_pos hvalid]

theorem eq_of_toNat_eq {c d : Char} (h : c.toNat = d.toNat) : c = d := by
  rw [← Char.ofNat_toNat c, h, Char.ofNat_toNat]

/-- **A character is written as one unit.** -/
theorem exists_unit_escapeChar (c : Char) {cs : List Char} {units : List CodeUnit}
    (h : IsUnits cs units) : ∃ unit, IsUnits (escapeChar c ++ cs) (unit :: units) ∧
      charsOfUnits? (unit :: units) = (charsOfUnits? units).map (c :: ·) := by
  -- most characters with an escape of their own have a letter for it
  have hescape : ∀ e, simpleEscape? e = some c → IsUnits ('\\' :: e :: cs) (.char c :: units) :=
    fun e he => .escape e c he h
  unfold escapeChar
  split
  next hc => exact ⟨.char c, hescape '"' (by rw [hc]; rfl), rfl⟩
  split
  next hc => exact ⟨.char c, hescape '\\' (by rw [hc]; rfl), rfl⟩
  split
  next hc => exact ⟨.char c, hescape 'n' (by rw [hc]; rfl), rfl⟩
  split
  next hc => exact ⟨.char c, hescape 'r' (by rw [hc]; rfl), rfl⟩
  split
  next hc => exact ⟨.char c, hescape 't' (by rw [hc]; rfl), rfl⟩
  split
  next hc => exact ⟨.char c, hescape 'b' (by rw [eq_of_toNat_eq (d := '\x08') hc]; rfl), rfl⟩
  split
  next hc => exact ⟨.char c, hescape 'f' (by rw [eq_of_toNat_eq (d := '\x0c') hc]; rfl), rfl⟩
  split
  next hc =>
    -- the other control characters are written by their number in four digits
    have hvalue : hexNatural? (hexDigits 4 c.toNat) = some c.toNat :=
      hexNatural?_hexDigits (by decide) (hc.trans (by decide))
    refine ⟨.code c.toNat, .code _ _ _ _ c.toNat hvalue h, ?_⟩
    rw [charsOfUnits?_code hc, Char.ofNat_toNat]
  next hquote hslash _ _ _ _ _ hcontrol =>
    -- everything else is written as it is
    exact ⟨.char c, .char c ⟨hquote, hslash, not_lt.1 hcontrol⟩ h, rfl⟩

/-- **A string is written as itself.** -/
theorem exists_units_quote (s : String) :
    ∃ units, IsUnits (s.toList.flatMap escapeChar) units ∧ textOf? units = some s := by
  -- one character after the other, each with the units of those behind it
  have hchars : ∀ cs : List Char, ∃ units, IsUnits (cs.flatMap escapeChar) units ∧
      charsOfUnits? units = some cs := by
    intro cs
    induction cs with
    | nil => exact ⟨[], .nil, rfl⟩
    | cons c cs ih =>
      obtain ⟨units, hunits, hvalue⟩ := ih
      obtain ⟨unit, hunit, hchar⟩ := exists_unit_escapeChar c hunits
      exact ⟨unit :: units, hunit, by rw [hchar, hvalue, Option.map_some]⟩
  obtain ⟨units, hunits, hvalue⟩ := hchars s.toList
  exact ⟨units, hunits, by rw [textOf?, hvalue, Option.map_some, String.ofList_toList]⟩

theorem toList_quote (s : String) :
    (quote s).toList = '"' :: (s.toList.flatMap escapeChar ++ ['"']) := by
  simp [quote]

theorem writes_quote (s : String) : Writes (quote s).toList (.value (.string (some s))) := by
  obtain ⟨units, hunits, hvalue⟩ := exists_units_quote s
  rw [toList_quote, ← hvalue]
  exact .string hunits

/-! ### Arrays and objects -/

theorem writes_item {cs : List Char} {t : Tree} (h : Writes cs (.value t)) :
    Writes cs (.item t) := by
  have hitem := Writes.item areSpaces_nil h areSpaces_nil
  rwa [List.append_nil] at hitem

/-- A member with its name. -/
theorem writes_member (name : String) {value : String} {t : Tree}
    (h : Writes value.toList (.value t)) :
    Writes (quote name ++ ":" ++ value).toList (.member (some name, t)) := by
  obtain ⟨units, hunits, hvalue⟩ := exists_units_quote name
  have hmember := Writes.member areSpaces_nil hunits areSpaces_nil (writes_item h)
  rw [hvalue] at hmember
  simpa [toList_quote] using hmember

theorem toList_join_cons_cons (s t : String) (rest : List String) :
    (join "," (s :: t :: rest)).toList = s.toList ++ ',' :: (join "," (t :: rest)).toList := by
  simp [join]

/-- **Items with commas between them.** -/
theorem writes_items {texts : List String} {ts : List Tree}
    (h : List.Forall₂ (fun s t => Writes s.toList (.value t)) texts ts) (hne : ts ≠ []) :
    Writes (join "," texts).toList (.items ts) := by
  induction h with
  | nil => exact absurd rfl hne
  | @cons s t texts ts hs h ih =>
    cases h with
    | nil => exact .lastItem (writes_item hs)
    | cons ht h =>
      rw [toList_join_cons_cons]
      exact .moreItems (writes_item hs) (ih (List.cons_ne_nil _ _))

/-- **Members with commas between them.** -/
theorem writes_members {texts : List String} {ms : List (Option String × Tree)}
    (h : List.Forall₂ (fun s m => Writes s.toList (.member m)) texts ms) (hne : ms ≠ []) :
    Writes (join "," texts).toList (.members ms) := by
  induction h with
  | nil => exact absurd rfl hne
  | @cons s m texts ms hs h ih =>
    cases h with
    | nil => exact .lastMember hs
    | cons hm h =>
      rw [toList_join_cons_cons]
      exact .moreMembers hs (ih (List.cons_ne_nil _ _))

/-- **An array,** with the brackets around its items. The empty one has a form of its own in the
grammar, because items are one at least. -/
theorem writes_array {texts : List String} {ts : List Tree}
    (h : List.Forall₂ (fun s t => Writes s.toList (.value t)) texts ts) :
    Writes ("[" ++ join "," texts ++ "]").toList (.value (.array ts)) := by
  have htext : ("[" ++ join "," texts ++ "]").toList =
      '[' :: ((join "," texts).toList ++ [']']) := by
    simp
  rw [htext]
  by_cases hne : ts = []
  · subst hne
    cases h
    exact .emptyArray areSpaces_nil
  · exact .array (writes_items h hne)

/-- **An object,** with the braces around its members, told apart from the empty one as arrays
are. -/
theorem writes_object {texts : List String} {ms : List (Option String × Tree)}
    (h : List.Forall₂ (fun s m => Writes s.toList (.member m)) texts ms) :
    Writes ("\x7b" ++ join "," texts ++ "\x7d").toList (.value (.object ms)) := by
  have htext : ("\x7b" ++ join "," texts ++ "\x7d").toList =
      '\x7b' :: ((join "," texts).toList ++ ['\x7d']) := by
    simp
  rw [htext]
  by_cases hne : ms = []
  · subst hne
    cases h
    exact .emptyObject areSpaces_nil
  · exact .object (writes_members h hne)

end QueryGateway.Json
