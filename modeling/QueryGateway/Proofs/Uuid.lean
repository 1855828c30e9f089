import QueryGateway.Proofs.Text.Blank
import QueryGateway.Proofs.Text.Digits
import QueryGateway.Proofs.Text.Split
import QueryGateway.Uuid

/-!
# Identifiers and their texts

The text of an identifier reads back as the identifier (`ofText?_text`). Its digits are cut into
groups that have no hyphen in them, so splitting at the hyphens gives the groups back, and digits of
base sixteen are worth the number they are written for.
-/

namespace QueryGateway.Text

/-- Hexadecimal digits are neither hyphens nor blanks. -/
theorem not_hyphen_of_mem_hexDigits {width n : Nat} {c : Char} (hc : c ∈ hexDigits width n) :
    c ≠ '-' ∧ isBlank c = false := by
  have hall : ∀ k < 16, hexDigit k ≠ '-' ∧ isBlank (hexDigit k) = false := by decide
  obtain ⟨k, hk, rfl⟩ := mem_hexDigits hc
  exact hall k hk

end QueryGateway.Text

namespace QueryGateway.Uuid

open Text

/-- The digits of an identifier. -/
def digits (u : Uuid) : List Char :=
  hexDigits 32 u.bits.toNat

theorem length_digits (u : Uuid) : u.digits.length = 32 :=
  length_hexDigits 32 u.bits.toNat

/-! ### Groups of digits -/

/-- The characters of groups with hyphens between them. -/
def withHyphens : List (List Char) → List Char
  | [] => []
  | [group] => group
  | group :: next :: rest => group ++ '-' :: withHyphens (next :: rest)

theorem toList_join (groups : List (List Char)) :
    (join "-" (groups.map String.ofList)).toList = withHyphens groups := by
  induction groups with
  | nil => rfl
  | cons group rest ih =>
    cases rest with
    | nil => exact String.toList_ofList
    | cons next rest =>
      rw [List.map_cons, List.map_cons, join, withHyphens, ← ih]
      simp

/-- Splitting at the hyphens gives groups without hyphens back. -/
theorem splitChars_withHyphens {groups : List (List Char)} (hne : groups ≠ [])
    (h : ∀ group ∈ groups, '-' ∉ group) : splitChars '-' (withHyphens groups) = groups := by
  induction groups with
  | nil => exact absurd rfl hne
  | cons group rest ih =>
    have hgroup : '-' ∉ group := h group List.mem_cons_self
    cases rest with
    | nil => exact splitChars_of_not_mem hgroup
    -- the first group ends at the hyphen that is put behind it
    | cons next rest =>
      have hrest := ih (List.cons_ne_nil _ _) fun g hg => h g (List.mem_cons_of_mem _ hg)
      rw [withHyphens, splitChars_append_cons hgroup, hrest]

/-- Cutting loses no digit. -/
theorem flatten_cut (lengths : List Nat) (cs : List Char) :
    (cut lengths cs).flatten = cs.take lengths.sum := by
  induction lengths generalizing cs with
  | nil => simp [cut]
  | cons n rest ih => rw [cut, List.flatten_cons, ih, List.sum_cons, List.take_add]

theorem mem_of_mem_cut {lengths : List Nat} {cs group : List Char} {c : Char}
    (hgroup : group ∈ cut lengths cs) (hc : c ∈ group) : c ∈ cs := by
  have hflat : c ∈ (cut lengths cs).flatten := List.mem_flatten.2 ⟨group, hgroup, hc⟩
  rw [flatten_cut] at hflat
  exact List.mem_of_mem_take hflat

theorem map_length_cut {lengths : List Nat} {cs : List Char} (h : lengths.sum ≤ cs.length) :
    (cut lengths cs).map List.length = lengths := by
  induction lengths generalizing cs with
  | nil => rfl
  | cons n rest ih =>
    rw [List.sum_cons] at h
    have hrest : rest.sum ≤ (cs.drop n).length := by rw [List.length_drop]; omega
    rw [cut, List.map_cons, ih hrest, List.length_take, Nat.min_eq_left (by omega)]

/-- Hyphens go between the groups, so they are one less than the groups. -/
theorem length_withHyphens {groups : List (List Char)} (hne : groups ≠ []) :
    (withHyphens groups).length + 1 = (groups.map List.length).sum + groups.length := by
  induction groups with
  | nil => exact absurd rfl hne
  | cons group rest ih =>
    cases rest with
    | nil => simp [withHyphens]
    | cons next rest =>
      have hrest := ih (List.cons_ne_nil _ _)
      rw [withHyphens, List.length_append, List.length_cons, List.map_cons, List.sum_cons,
        List.length_cons]
      omega

/-- What stands in the text is a hyphen or a character of a group. -/
theorem mem_withHyphens {groups : List (List Char)} {c : Char} (hc : c ∈ withHyphens groups) :
    c = '-' ∨ ∃ group ∈ groups, c ∈ group := by
  induction groups with
  | nil => cases hc
  | cons group rest ih =>
    cases rest with
    | nil => exact .inr ⟨group, List.mem_cons_self, hc⟩
    | cons next rest =>
      rw [withHyphens, List.mem_append, List.mem_cons] at hc
      rcases hc with hc | hc | hc
      · exact .inr ⟨group, List.mem_cons_self, hc⟩
      · exact .inl hc
      · exact (ih hc).imp_right fun ⟨g, hg, hmem⟩ => ⟨g, List.mem_cons_of_mem _ hg, hmem⟩

/-! ### The text of an identifier -/

/-- The groups of the digits of an identifier. -/
def digitGroups (u : Uuid) : List (List Char) :=
  cut groups u.digits

theorem toList_text (u : Uuid) : u.text.toList = withHyphens u.digitGroups :=
  toList_join u.digitGroups

theorem map_length_digitGroups (u : Uuid) : u.digitGroups.map List.length = groups :=
  map_length_cut (by rw [length_digits]; decide)

theorem digitGroups_ne_nil (u : Uuid) : u.digitGroups ≠ [] :=
  List.cons_ne_nil _ _

theorem flatten_digitGroups (u : Uuid) : u.digitGroups.flatten = u.digits := by
  have hall : groups.sum = u.digits.length := (length_digits u).symm
  rw [digitGroups, flatten_cut, hall, List.take_length]

theorem length_text (u : Uuid) : u.text.toList.length = 36 := by
  have hlength := length_withHyphens u.digitGroups_ne_nil
  have hgroups : u.digitGroups.length = groups.length := by
    rw [← map_length_digitGroups u, List.length_map]
  rw [map_length_digitGroups, hgroups] at hlength
  rw [toList_text]
  have hsum : groups.sum + groups.length = 37 := rfl
  omega

/-- A hyphen stands behind the first group, which is not empty. -/
theorem hyphen_mem_tail_text (u : Uuid) : '-' ∈ u.text.toList.tail := by
  -- the first group has eight digits
  have hgroup : u.digits.take 8 ≠ [] := by
    intro hnil
    have hlength := congrArg List.length hnil
    rw [List.length_take, length_digits] at hlength
    cases hlength
  have htext : u.text.toList =
      u.digits.take 8 ++ '-' :: withHyphens (cut [4, 4, 4, 12] (u.digits.drop 8)) :=
    toList_text u
  rw [htext, List.tail_append_of_ne_nil hgroup]
  exact List.mem_append_right _ List.mem_cons_self

theorem isBlank_of_mem_text {u : Uuid} {c : Char} (hc : c ∈ u.text.toList) : isBlank c = false := by
  rw [toList_text] at hc
  rcases mem_withHyphens hc with rfl | ⟨group, hgroup, hmem⟩
  · decide
  · exact (not_hyphen_of_mem_hexDigits (mem_of_mem_cut hgroup hmem)).2

/-- **The text of an identifier** reads back as the identifier. Its length tells it from the form
without hyphens, and its groups have the lengths that are asked for. -/
theorem ofText?_text (u : Uuid) : ofText? u.text.toList = some u := by
  have hlength := length_text u
  -- hexadecimal digits are no hyphens, so the groups are cut where they were joined
  have hhyphens : ∀ group ∈ u.digitGroups, '-' ∉ group := fun group hgroup hmem =>
    (not_hyphen_of_mem_hexDigits (mem_of_mem_cut hgroup hmem)).1 rfl
  have hsplit : splitChars '-' u.text.toList = u.digitGroups := by
    rw [toList_text, splitChars_withHyphens u.digitGroups_ne_nil hhyphens]
  -- the digits are those of a number of 128 bits
  have hdigits : ofDigits? u.digits = some u := by
    have hvalue : hexNatural? u.digits = some u.bits.toNat :=
      hexNatural?_hexDigits (by decide) u.bits.isLt
    rw [ofDigits?, if_pos (length_digits u), hvalue, Option.map_some, BitVec.ofNat_toNat,
      BitVec.setWidth_eq]
  have hgroups : ofGroups? u.text.toList = some u := by
    simp only [ofGroups?, hsplit, map_length_digitGroups, if_pos, flatten_digitGroups, hdigits]
  rw [ofText?, if_neg (by omega), if_pos hlength, hgroups]

end QueryGateway.Uuid
