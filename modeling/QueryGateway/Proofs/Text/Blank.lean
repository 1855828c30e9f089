import Mathlib.Data.List.DropRight
import QueryGateway.Proofs.Text.LowerCase
import QueryGateway.Settings.Basic

/-!
# Texts without blanks around them

The key of a context is its name without blanks around it, in lower case. Names are taken to their
keys more than once: settings are validated by keys, tenants are stored under them, and a name in a
request, or a key itself, is taken to its key again. `contextKey_contextKey` says that the second
time changes nothing.

What carries the argument is `IsTrimmed`: neither end of the text is a blank. Trimming leads to such
texts (`isTrimmed_trimChars`) and leaves them alone (`trimChars_eq_self`). Lower-casing keeps a text
trimmed (`IsTrimmed.lowerFrom`), because no letter has a blank for its lower-case form
(`isBlank_of_mem_lowerAt`). That is read off the table `lowerRuns`, whose runs of forms keep away
from the ranges of blanks as a whole.
-/

namespace QueryGateway.Text

variable {cs : List Char} {c d : Char}

/-! ### Trimmed texts -/

/-- **A text without blanks around it.** -/
structure IsTrimmed (cs : List Char) : Prop where
  head : ∀ c, cs.head? = some c → isBlank c = false
  last : ∀ c, cs.getLast? = some c → isBlank c = false

theorem isBlank_of_head?_skipBlanks (h : (skipBlanks cs).head? = some c) : isBlank c = false := by
  have hnot := List.head?_dropWhile_not isBlank cs
  rw [show cs.dropWhile isBlank = skipBlanks cs from rfl, h] at hnot
  exact hnot

theorem skipBlanks_eq_self (h : ∀ c, cs.head? = some c → isBlank c = false) :
    skipBlanks cs = cs := by
  cases cs with
  | nil => rfl
  | cons c rest =>
    have hc : isBlank c = false := h c rfl
    exact List.dropWhile_cons_of_neg (by rw [hc]; exact Bool.false_ne_true)

theorem trimChars_eq_rdropWhile (cs : List Char) :
    trimChars cs = (skipBlanks cs).rdropWhile isBlank :=
  rfl

/-- **Trimming leads to trimmed texts.** -/
theorem isTrimmed_trimChars (cs : List Char) : IsTrimmed (trimChars cs) := by
  refine ⟨fun c hc => ?_, fun c hc => ?_⟩
  · -- what is dropped at the end leaves the first character where it is
    obtain ⟨dropped, hsplit⟩ := List.rdropWhile_prefix isBlank (skipBlanks cs)
    have hhead : (skipBlanks cs).head? = some c := by
      rw [← hsplit, List.head?_append, ← trimChars_eq_rdropWhile, hc, Option.some_or]
    exact isBlank_of_head?_skipBlanks hhead
  · rw [trimChars, List.getLast?_reverse] at hc
    exact isBlank_of_head?_skipBlanks hc

/-- **Trimmed texts stay as they are.** -/
theorem trimChars_eq_self (h : IsTrimmed cs) : trimChars cs = cs := by
  rw [trimChars, skipBlanks_eq_self h.head, skipBlanks_eq_self, List.reverse_reverse]
  intro c hc
  rw [List.head?_reverse] at hc
  exact h.last c hc

theorem isTrimmed_trim (s : String) : IsTrimmed (trim s).toList := by
  rw [trim, String.toList_ofList]
  exact isTrimmed_trimChars s.toList

theorem trim_eq_self {s : String} (h : IsTrimmed s.toList) : trim s = s := by
  rw [trim, trimChars_eq_self h, String.ofList_toList]

/-- Digits are no blanks. -/
theorem isBlank_of_isDigit (h : c.isDigit = true) : isBlank c = false := by
  simp only [Char.isDigit, Bool.and_eq_true, decide_eq_true_eq, ge_iff_le, UInt32.le_iff_toNat_le]
    at h
  change 48 ≤ c.toNat ∧ c.toNat ≤ 57 at h
  rw [Bool.eq_false_iff]
  simp only [isBlank, ne_eq, Bool.or_eq_true, Bool.and_eq_true, decide_eq_true_eq, beq_iff_eq]
  omega

theorem isBlank_of_mem_digits (h : ∀ c ∈ cs, c.isDigit = true) : ∀ c ∈ cs, isBlank c = false :=
  fun c hc => isBlank_of_isDigit (h c hc)

/-- A text of which no character is blank. -/
theorem isTrimmed_of_forall (h : ∀ c ∈ cs, isBlank c = false) : IsTrimmed cs where
  head := fun c hc => h c (List.mem_of_head? hc)
  last := fun c hc => h c (List.mem_of_getLast? hc)

theorem skipBlanks_append {before : List Char} (h : ∀ c ∈ before, isBlank c = true) :
    skipBlanks (before ++ cs) = skipBlanks cs :=
  List.dropWhile_append_of_pos h

/-- **Blanks around a trimmed text** are what trimming takes away. -/
theorem trimChars_padded {before after : List Char} (h : IsTrimmed cs)
    (hbefore : ∀ c ∈ before, isBlank c = true) (hafter : ∀ c ∈ after, isBlank c = true) :
    trimChars (before ++ cs ++ after) = cs := by
  -- the end is trimmed as the front of the reverse
  have hreverse : ∀ c ∈ after.reverse, isBlank c = true := fun c hc =>
    hafter c (List.mem_reverse.1 hc)
  have hlast : ∀ c, cs.reverse.head? = some c → isBlank c = false := fun c hc =>
    h.last c (by rwa [List.head?_reverse] at hc)
  rw [trimChars, List.append_assoc, skipBlanks_append hbefore]
  cases cs with
  | nil =>
    -- nothing but blanks: all of it goes from the front
    have hall : skipBlanks ([] ++ after) = [] := List.dropWhile_eq_nil_iff.2 hafter
    rw [hall]
    rfl
  -- the first character is no blank, so the front is done, and the end is that of the text
  | cons c rest =>
    have hfront : skipBlanks (c :: rest ++ after) = c :: rest ++ after :=
      skipBlanks_eq_self fun d hd => h.head d hd
    rw [hfront, List.reverse_append, skipBlanks_append hreverse, skipBlanks_eq_self hlast,
      List.reverse_reverse]

/-- Only blanks are trimmed to nothing. -/
theorem trimChars_eq_nil_iff : trimChars cs = [] ↔ cs.all isBlank = true := by
  rw [trimChars_eq_rdropWhile, List.rdropWhile_eq_nil_iff, List.all_eq_true]
  constructor
  · intro h
    -- a character that is left would begin with one that is no blank
    have hnil : skipBlanks cs = [] := by
      cases hcs : skipBlanks cs with
      | nil => rfl
      | cons c rest =>
        have hblank : isBlank c = true := h c (by rw [hcs]; exact List.mem_cons_self)
        have hnot : isBlank c = false := isBlank_of_head?_skipBlanks (by rw [hcs]; rfl)
        rw [hnot] at hblank
        cases hblank
    exact List.dropWhile_eq_nil_iff.1 hnil
  · intro h c hc
    exact h c ((List.dropWhile_suffix isBlank).subset hc)

/-- Trimming drops blanks alone. -/
theorem mem_trimChars_iff (h : isBlank c = false) : c ∈ trimChars cs ↔ c ∈ cs := by
  -- what is skipped are blanks, and the character is none
  have hskip : ∀ cs, c ∈ skipBlanks cs ↔ c ∈ cs := by
    intro cs
    constructor
    · exact fun hc => (List.dropWhile_suffix isBlank).subset hc
    · intro hc
      rw [← cs.takeWhile_append_dropWhile (p := isBlank), List.mem_append] at hc
      refine hc.resolve_left fun hdropped => ?_
      have hblank : isBlank c = true := List.mem_takeWhile_imp hdropped
      rw [h] at hblank
      cases hblank
  rw [trimChars, List.mem_reverse, hskip, List.mem_reverse, hskip]

/-! ### Lower case -/

/-- The blanks, as closed ranges. -/
def blankRanges : List (Nat × Nat) :=
  [(0x09, 0x0D), (0x20, 0x20), (0x85, 0x85), (0xA0, 0xA0), (0x1680, 0x1680), (0x2000, 0x200A),
    (0x2028, 0x2029), (0x202F, 0x202F), (0x205F, 0x205F), (0x3000, 0x3000)]

theorem isBlank_eq_inRanges (c : Char) : isBlank c = inRanges blankRanges c.toNat := by
  rw [Bool.eq_iff_iff]
  simp only [isBlank, inRanges, blankRanges, List.any_cons, List.any_nil, Bool.or_eq_true,
    Bool.and_eq_true, decide_eq_true_eq, beq_iff_eq, Bool.or_false]
  omega

/-- Whether the lower-case forms of a run keep away from the blanks. -/
def CaseRun.isApartFromBlanks (r : CaseRun) : Bool :=
  blankRanges.all fun blanks => r.form r.last < blanks.1 || blanks.2 < r.form r.first

theorem lowerRuns_isApartFromBlanks : lowerRuns.all CaseRun.isApartFromBlanks = true := by
  decide +kernel

theorem isBlank_form {r : CaseRun} {n : Nat} (hr : r ∈ lowerRuns) (hn : r.contains n = true) :
    isBlank (Char.ofNat (r.form n)) = false := by
  have hsettled : r.isSettled = true := List.all_eq_true.1 lowerRuns_isSettled r hr
  have hapart : r.isApartFromBlanks = true := List.all_eq_true.1 lowerRuns_isApartFromBlanks r hr
  rw [isBlank_eq_inRanges, toNat_ofNat_form hsettled hn, Bool.eq_false_iff]
  intro hblank
  obtain ⟨blanks, hmem, hwithin⟩ := List.any_eq_true.1 hblank
  have hfar := List.all_eq_true.1 hapart blanks hmem
  simp only [CaseRun.contains, Bool.and_eq_true, Bool.or_eq_true, decide_eq_true_eq,
    beq_iff_eq] at hn hwithin hfar
  simp only [CaseRun.form] at hwithin hfar
  -- the form lies between those of the ends of the run
  omega

/-- A character that is no blank has no blank for its small form. It is seen from the tables: the
forms of a run are apart from the blanks, and so are the small letters of ASCII. -/
theorem isBlank_lowerChar (h : isBlank c = false) : isBlank (lowerChar c) = false := by
  obtain ⟨hlo, hhi⟩ | ⟨r, hr, hn, hform⟩ | hself := lowerChar_cases c
  · rw [isBlank_eq_inRanges, Bool.eq_false_iff]
    intro hblank
    obtain ⟨blanks, hmem, hwithin⟩ := List.any_eq_true.1 hblank
    -- no blank stands among the small letters
    have hletters : blankRanges.all fun b => b.2 < 0x61 || 0x7A < b.1 := by decide
    have hfar := List.all_eq_true.1 hletters blanks hmem
    simp only [Bool.and_eq_true, Bool.or_eq_true, decide_eq_true_eq] at hwithin hfar
    omega
  · rw [hform]
    exact isBlank_form hr hn
  · rw [hself]
    exact h

/-- **Lower-casing brings in no blanks,** also where a character has a rule of its own. -/
theorem isBlank_of_mem_lowerAt {before after : List Char} (h : isBlank c = false)
    (hd : d ∈ lowerAt before c after) : isBlank d = false := by
  unfold lowerAt at hd
  split at hd
  · rw [List.mem_singleton] at hd
    -- the two forms of a sigma
    subst hd
    unfold lowerSigma
    split <;> decide
  split at hd
  · -- the dotted capital, which becomes two characters
    rcases List.mem_cons.1 hd with rfl | hd
    · decide
    · rw [List.mem_singleton.1 hd]
      decide
  · rw [List.mem_singleton.1 hd]
    exact isBlank_lowerChar h

theorem lowerAt_ne_nil (before : List Char) (c : Char) (after : List Char) :
    lowerAt before c after ≠ [] := by
  unfold lowerAt
  split
  · exact List.cons_ne_nil _ _
  split
  · exact List.cons_ne_nil _ _
  · exact List.cons_ne_nil _ _

theorem lowerFrom_eq_nil_iff {before : List Char} : lowerFrom before cs = [] ↔ cs = [] := by
  cases cs with
  | nil => exact ⟨fun _ => rfl, fun _ => rfl⟩
  | cons c after => simp [lowerFrom, lowerAt_ne_nil]

/-- The last character of a text in lower case is a form of the last one. -/
theorem getLast?_lowerFrom {before : List Char} (h : (lowerFrom before cs).getLast? = some d) :
    ∃ c before' after', cs.getLast? = some c ∧ d ∈ lowerAt before' c after' := by
  induction cs generalizing before with
  | nil => cases h
  | cons c after ih =>
    rw [lowerFrom, List.getLast?_append] at h
    cases hlast : (lowerFrom (c :: before) after).getLast? with
    | none =>
      -- nothing follows, so the form is one of this character
      rw [hlast, Option.none_or] at h
      obtain rfl : after = [] := lowerFrom_eq_nil_iff.1 (List.getLast?_eq_none_iff.1 hlast)
      exact ⟨c, before, [], rfl, List.mem_of_getLast? h⟩
    | some e =>
      -- something follows, and the last of it is a form of the last character
      rw [hlast, Option.some_or, ← hlast] at h
      obtain ⟨c', before', after', hc', hd⟩ := ih h
      refine ⟨c', before', after', ?_, hd⟩
      rw [List.getLast?_cons, hc', Option.getD_some]

theorem IsTrimmed.lowerFrom (h : IsTrimmed cs) (before : List Char) :
    IsTrimmed (lowerFrom before cs) := by
  refine ⟨fun d hd => ?_, fun d hd => ?_⟩
  · cases cs with
    | nil => cases hd
    | cons c after =>
      -- the first character has a form, so the first one in lower case is one of it
      rw [Text.lowerFrom, List.head?_append_of_ne_nil _ (lowerAt_ne_nil before c after)] at hd
      exact isBlank_of_mem_lowerAt (h.head c rfl) (List.mem_of_head? hd)
  · obtain ⟨c, before', after', hc, hmem⟩ := getLast?_lowerFrom hd
    exact isBlank_of_mem_lowerAt (h.last c hc) hmem

end QueryGateway.Text

namespace QueryGateway

open Text

/-! ### Keys of contexts -/

theorem toList_contextKey (name : String) :
    (contextKey name).toList = lowerChars (trimChars name.toList) := by
  rw [contextKey, lower, trim, String.toList_ofList, String.toList_ofList]

theorem isTrimmed_contextKey (name : String) : IsTrimmed (contextKey name).toList := by
  rw [toList_contextKey]
  exact (isTrimmed_trimChars name.toList).lowerFrom []

/-- **A key has a slash** if its name has one. -/
theorem slash_mem_contextKey_iff (name : String) :
    '/' ∈ (contextKey name).toList ↔ '/' ∈ name.toList := by
  have hlower : '/' ∈ lowerChars (trimChars name.toList) ↔ '/' ∈ trimChars name.toList :=
    mem_lowerFrom_iff_of_lt (by decide) (by decide)
  rw [toList_contextKey, hlower]
  exact mem_trimChars_iff (by decide)

/-- **The key of a key** is the key itself. -/
theorem contextKey_contextKey (name : String) : contextKey (contextKey name) = contextKey name := by
  have htrim : trim (contextKey name) = contextKey name :=
    trim_eq_self (isTrimmed_contextKey name)
  calc contextKey (contextKey name)
      = lower (contextKey name) := by rw [contextKey, htrim]
    _ = contextKey name := lower_lower (trim name)

/-- **Blank names have the empty key,** and no others. -/
theorem isEmpty_contextKey (name : String) : (contextKey name).isEmpty = isAllBlank name := by
  have hlower : lowerChars (trimChars name.toList) = [] ↔ _ := lowerFrom_eq_nil_iff
  -- both sides say that trimming leaves nothing, one of them in lower case
  rw [Bool.eq_iff_iff, String.isEmpty_iff, isAllBlank, ← trimChars_eq_nil_iff, ← hlower]
  constructor
  · intro h
    have hchars := congrArg String.toList h
    rw [toList_contextKey] at hchars
    exact hchars
  · intro h
    refine String.ext ?_
    rw [toList_contextKey]
    exact h

theorem isAllBlank_contextKey (name : String) : isAllBlank (contextKey name) = isAllBlank name := by
  rw [← isEmpty_contextKey, contextKey_contextKey, isEmpty_contextKey]

end QueryGateway
