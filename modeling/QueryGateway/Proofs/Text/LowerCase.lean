import Mathlib.Data.List.Chain
import Mathlib.Data.List.TakeWhile
import QueryGateway.Command.Descriptor

/-!
# Lower-casing twice

Names, keys and contexts are taken to their lower-case form more than once on their way: when they
are stored, when they are looked up and again when a stored key is compared. `lower_lower` says that
the second time changes nothing, and `parameterKey_parameterKey` the same of the keys of parameters.

The mapping looks at the neighbours of a capital sigma, so one character alone does not decide its
form. What carries the argument is `IsLowered`: a character that every context leaves as it is. No
character that `lowerFrom` writes can be lowered further, wherever it stands
(`isLowered_of_mem_lowerFrom`), and characters of that kind are left alone (`lowerFrom_eq_self`).

That no lower-case form is itself an upper-case letter is a fact about the table `lowerRuns`. It is
checked for pairs of runs and not letter by letter: `CaseRun.isApartFrom` compares the forms of one
run with the letters of another by their bounds and, where the other takes every second letter, by
parity. The table is in the order of its letters, so that most pairs need no look
(`CaseRun.among`).
-/

namespace QueryGateway.Text

/-! ### The table -/

/-- The lower-case form of the letter `n` of a run, as a code point. -/
def CaseRun.form (r : CaseRun) (n : Nat) : Nat :=
  ((n : Int) + r.offset).toNat

/-- Whether no lower-case form of the run `r` is a letter of the run `other`. -/
def CaseRun.isApartFrom (r other : CaseRun) : Bool :=
  r.form r.last < other.first || other.last < r.form r.first ||
    ((r.stride == 2 || r.first == r.last) && other.stride == 2 &&
      (r.form r.first + other.first) % 2 == 1)

/-- Whether the lower-case forms of a run are characters, and neither ASCII capitals, markers nor
one of the two letters with a rule of their own. -/
def CaseRun.isSettled (r : CaseRun) : Bool :=
  0 ≤ (r.first : Int) + r.offset &&
    (r.form r.last < 0xD800 || (0xDFFF < r.form r.first && r.form r.last < 0x110000)) &&
    (r.form r.last < 0x40 || 0x5A < r.form r.first) &&
    (r.form r.last < 0x130 || 0x130 < r.form r.first) &&
    (r.form r.last < 0x3A3 || 0x3A3 < r.form r.first)

theorem lowerRuns_isSettled : lowerRuns.all CaseRun.isSettled = true := by
  decide +kernel

theorem lowerRuns_isChain : lowerRuns.IsChain fun r s => r.first < s.first := by
  decide +kernel

/-- The runs that reach into the range of the forms of `r`, out of a table in the order of its
letters. The bounds are compared by functions that the kernel computes. -/
def CaseRun.among (r : CaseRun) (runs : List CaseRun) : List CaseRun :=
  (runs.dropWhile fun s => Nat.blt s.last (r.form r.first)).takeWhile fun s =>
    Nat.ble s.first (r.form r.last)

theorem lowerRuns_isApartFrom_among :
    lowerRuns.all (fun r => (r.among lowerRuns).all r.isApartFrom) = true := by
  decide +kernel

/-- In a list of runs in order, what begins behind a number stays behind it. -/
theorem CaseRun.lt_first_of_mem_dropWhile {n : Nat} {s : CaseRun} {runs : List CaseRun}
    (hruns : runs.Pairwise fun s t => s.first < t.first)
    (hs : s ∈ runs.dropWhile fun t => Nat.ble t.first n) : n < s.first := by
  induction runs with
  | nil => cases hs
  | cons t runs ih =>
    obtain ⟨hhead, htail⟩ := List.pairwise_cons.1 hruns
    by_cases ht : t.first ≤ n
    · -- a run that begins no later is dropped
      rw [List.dropWhile_cons, if_pos (Nat.ble_eq_true_of_le ht)] at hs
      exact ih htail hs
    · rw [List.dropWhile_cons, if_neg (mt Nat.le_of_ble_eq_true ht)] at hs
      -- the first run that is kept begins later, and all others later still
      have hlt : n < t.first := Nat.lt_of_not_le ht
      obtain rfl | hs := List.mem_cons.1 hs
      · exact hlt
      · exact hlt.trans (hhead s hs)

/-- No lower-case form of one run of the table is a letter of another. -/
theorem lowerRuns_isApartFrom {r s : CaseRun} (hr : r ∈ lowerRuns) (hs : s ∈ lowerRuns) :
    r.isApartFrom s = true := by
  have hamong : ∀ t ∈ r.among lowerRuns, r.isApartFrom t = true :=
    List.all_eq_true.1 (List.all_eq_true.1 lowerRuns_isApartFrom_among r hr)
  -- a run ends before the forms, is among them or begins behind them
  rw [← lowerRuns.takeWhile_append_dropWhile (p := fun t => Nat.blt t.last (r.form r.first)),
    List.mem_append] at hs
  -- a run that ends before the forms begin has none of them
  rcases hs with hbefore | hs
  · have hlt : s.last < r.form r.first := by
      simpa using List.mem_takeWhile_imp hbefore
    simp [CaseRun.isApartFrom, hlt]
  rw [← List.takeWhile_append_dropWhile (p := fun t => Nat.ble t.first (r.form r.last))
    (l := List.dropWhile _ _), List.mem_append] at hs
  rcases hs with hs | hbehind
  · -- those in between have been looked at one by one
    exact hamong s hs
  · -- a run that begins behind the last form has none of them either
    have hlt : r.form r.last < s.first :=
      CaseRun.lt_first_of_mem_dropWhile
        (lowerRuns_isChain.pairwise.sublist (List.dropWhile_sublist _)) hbehind
    simp [CaseRun.isApartFrom, hlt]

/-- No lower-case form is a letter of a run that the runs are apart from. -/
theorem CaseRun.contains_form {r other : CaseRun} {n : Nat} (hr : r.isSettled = true)
    (ha : r.isApartFrom other = true) (hn : r.contains n = true) :
    other.contains (r.form n) = false := by
  simp only [CaseRun.isSettled, CaseRun.isApartFrom, CaseRun.contains, Bool.and_eq_true,
    Bool.or_eq_true, decide_eq_true_eq, beq_iff_eq] at hr ha hn
  obtain ⟨⟨⟨⟨h0, -⟩, -⟩, -⟩, -⟩ := hr
  obtain ⟨⟨hlo, hhi⟩, hstep⟩ := hn
  rw [CaseRun.contains, Bool.eq_false_iff]
  -- a form that is a letter of the other run lies between its bounds and at its distance
  intro hc
  simp only [Bool.and_eq_true, decide_eq_true_eq, beq_iff_eq] at hc
  obtain ⟨⟨hclo, hchi⟩, hcstep⟩ := hc
  simp only [CaseRun.form] at ha hclo hchi hcstep
  -- apart by their bounds, or interleaved: then the forms have the other parity
  rcases ha with (hbelow | habove) | ⟨⟨hstride | hone, hother⟩, hodd⟩
  · omega
  · omega
  · rw [hstride] at hstep
    rw [hother] at hcstep
    omega
  · rw [hother] at hcstep
    omega

/-! ### Characters that stay as they are -/

/-- **A character that lower-casing leaves alone** between any neighbours. -/
structure IsLowered (c : Char) : Prop where
  /-- The form of a sigma depends on its neighbours. -/
  ne_sigma : c ≠ 'Σ'
  /-- This letter has two characters for its form. -/
  ne_dotted : c ≠ 'İ'
  lowerChar_eq : lowerChar c = c

theorem char_le_iff {c d : Char} : c ≤ d ↔ c.toNat ≤ d.toNat := by
  rw [Char.le_def, UInt32.le_iff_toNat_le]
  rfl

theorem lowerChar_of_lt {c : Char} (h : c.toNat < 0x80) (hc : c.toNat < 0x41 ∨ 0x5A < c.toNat) :
    lowerChar c = c := by
  have hne : ¬ ('A' ≤ c ∧ c ≤ 'Z') := by
    rw [char_le_iff, char_le_iff]
    intro hb
    have hA : 'A'.toNat = 0x41 := rfl
    have hZ : 'Z'.toNat = 0x5A := rfl
    omega
  rw [lowerChar, if_pos h, if_neg (by simpa using hne)]

theorem lowerChar_of_no_run {c : Char} (h : 0x80 ≤ c.toNat)
    (hc : ∀ r ∈ lowerRuns, r.contains c.toNat = false) : lowerChar c = c := by
  have hnone : lowerRuns.find? (·.contains c.toNat) = none := by
    rw [List.find?_eq_none]
    intro r hr
    rw [hc r hr]
    exact Bool.false_ne_true
  rw [lowerChar, if_neg (by omega), hnone]

/-- The lower-case form of a letter of a run, as it stands in the run's own terms. -/
theorem toNat_ofNat_form {r : CaseRun} {n : Nat} (hr : r.isSettled = true)
    (hn : r.contains n = true) : (Char.ofNat (r.form n)).toNat = r.form n := by
  simp only [CaseRun.isSettled, CaseRun.contains, Bool.and_eq_true, Bool.or_eq_true,
    decide_eq_true_eq, beq_iff_eq] at hr hn
  -- a settled run keeps away from the numbers that are no characters
  obtain ⟨⟨⟨⟨h0, hvalid⟩, -⟩, -⟩, -⟩ := hr
  obtain ⟨⟨hlo, hhi⟩, -⟩ := hn
  have hv : (r.form n).isValidChar := by
    simp only [Nat.isValidChar, CaseRun.form] at hvalid ⊢
    omega
  rw [Char.ofNat, dif_pos hv]
  rfl

/-- **What a run makes of its letters** stays as it is: no run has it for a letter, and it is none
of the characters with a rule of their own. -/
theorem isLowered_form {r : CaseRun} {n : Nat} (hr : r ∈ lowerRuns) (hn : r.contains n = true) :
    IsLowered (Char.ofNat (r.form n)) := by
  have hset : r.isSettled = true := List.all_eq_true.1 lowerRuns_isSettled r hr
  have hform : (Char.ofNat (r.form n)).toNat = r.form n := toNat_ofNat_form hset hn
  -- no run of the table has the form for a letter
  have hruns : ∀ other ∈ lowerRuns, other.contains (r.form n) = false := by
    intro other hother
    exact r.contains_form hset (lowerRuns_isApartFrom hr hother) hn
  simp only [CaseRun.isSettled, CaseRun.contains, Bool.and_eq_true, Bool.or_eq_true,
    decide_eq_true_eq, beq_iff_eq] at hset hn
  obtain ⟨⟨⟨⟨h0, -⟩, hascii⟩, hdotted⟩, hsigma⟩ := hset
  obtain ⟨⟨hlo, hhi⟩, -⟩ := hn
  simp only [CaseRun.form] at hascii hdotted hsigma
  -- each goal is a place that a settled run keeps away from: U+03A3, U+0130, the capitals
  refine ⟨fun h => ?_, fun h => ?_, ?_⟩
  · rw [h] at hform
    have hS : 'Σ'.toNat = 0x3A3 := rfl
    rw [hS, CaseRun.form] at hform
    omega
  · rw [h] at hform
    have hI : 'İ'.toNat = 0x130 := rfl
    rw [hI, CaseRun.form] at hform
    omega
  · -- a form in ASCII is a small letter, and any other one is in no run
    by_cases hlt : r.form n < 0x80
    · have hval : r.form n = ((n : Int) + r.offset).toNat := rfl
      exact lowerChar_of_lt (by omega) (by omega)
    · refine lowerChar_of_no_run (by rw [hform]; omega) ?_
      rw [hform]
      exact hruns

/-- **What lower-casing makes of a character** without a rule of its own: a small ASCII letter, the
form that a run gives, or the character itself. -/
theorem lowerChar_cases (c : Char) :
    (0x61 ≤ (lowerChar c).toNat ∧ (lowerChar c).toNat ≤ 0x7A) ∨
      (∃ r ∈ lowerRuns, r.contains c.toNat = true ∧
        lowerChar c = Char.ofNat (r.form c.toNat)) ∨
      lowerChar c = c := by
  by_cases hlt : c.toNat < 0x80
  · -- a capital of ASCII, which is moved by the distance of the alphabets
    by_cases hcap : 'A' ≤ c ∧ c ≤ 'Z'
    · rw [lowerChar, if_pos hlt, if_pos (by simpa using hcap)]
      rw [char_le_iff, char_le_iff] at hcap
      have hA : 'A'.toNat = 0x41 := rfl
      have hZ : 'Z'.toNat = 0x5A := rfl
      have hval : (Char.ofNat (c.toNat + 32)).toNat = c.toNat + 32 := by
        rw [Char.ofNat, dif_pos (Or.inl (by omega))]
        rfl
      exact Or.inl ⟨by omega, by omega⟩
    · refine Or.inr (Or.inr ?_)
      rw [lowerChar, if_pos hlt, if_neg (by simpa using hcap)]
  · -- a letter of the first run that has it, or of none
    cases hfind : lowerRuns.find? (·.contains c.toNat) with
    | some r =>
      refine Or.inr (Or.inl ⟨r, List.mem_of_find?_eq_some hfind,
        List.find?_some (p := fun r : CaseRun => r.contains c.toNat) hfind, ?_⟩)
      rw [lowerChar, if_neg hlt, hfind]
      rfl
    | none =>
      refine Or.inr (Or.inr ?_)
      rw [lowerChar, if_neg hlt, hfind]

/-- What becomes of a character without a rule of its own stays as it is. -/
theorem isLowered_lowerChar {c : Char} (hsigma : c ≠ 'Σ') (hdotted : c ≠ 'İ') :
    IsLowered (lowerChar c) := by
  obtain ⟨hlo, hhi⟩ | ⟨r, hr, hn, hform⟩ | hself := lowerChar_cases c
  · -- a small letter of ASCII is none of the two characters with a rule
    refine ⟨fun h => ?_, fun h => ?_, lowerChar_of_lt (by omega) (by omega)⟩
    · rw [h] at hhi
      have hS : 'Σ'.toNat = 0x3A3 := rfl
      omega
    · rw [h] at hhi
      have hI : 'İ'.toNat = 0x130 := rfl
      omega
  · rw [hform]
    exact isLowered_form hr hn
  · rw [hself]
    exact ⟨hsigma, hdotted, hself⟩

/-! ### Whole texts -/

/-- **What becomes of a character** stays as it is, also if the character has a rule of its own. -/
theorem isLowered_of_mem_lowerAt {before after : List Char} {c d : Char}
    (h : d ∈ lowerAt before c after) : IsLowered d := by
  unfold lowerAt at h
  -- the forms of a sigma are small letters
  split at h
  · rw [List.mem_singleton] at h
    subst h
    unfold lowerSigma
    split <;> exact ⟨by decide, by decide, by decide +kernel⟩
  split at h
  · -- the dotted capital becomes a small letter and a combining point
    rcases List.mem_cons.1 h with rfl | h
    · exact ⟨by decide, by decide, by decide⟩
    · rw [List.mem_singleton] at h
      subst h
      exact ⟨by decide, by decide, by decide +kernel⟩
  · rw [List.mem_singleton] at h
    subst h
    exact isLowered_lowerChar ‹_› ‹_›

/-- Lower-casing writes nothing that could be lowered further. -/
theorem isLowered_of_mem_lowerFrom {before cs : List Char} {d : Char}
    (h : d ∈ lowerFrom before cs) : IsLowered d := by
  induction cs generalizing before with
  | nil => exact absurd h (List.not_mem_nil)
  | cons c after ih =>
    -- `d` is lowered whatever stands before it, so the context may differ in the induction
    rw [lowerFrom, List.mem_append] at h
    rcases h with h | h
    · exact isLowered_of_mem_lowerAt h
    · exact ih h

theorem lowerFrom_eq_self {before cs : List Char} (h : ∀ c ∈ cs, IsLowered c) :
    lowerFrom before cs = cs := by
  induction cs generalizing before with
  | nil => rfl
  | cons c after ih =>
    have hc := h c List.mem_cons_self
    rw [lowerFrom, ih fun d hd => h d (List.mem_cons_of_mem c hd), lowerAt, if_neg hc.ne_sigma,
      if_neg hc.ne_dotted, hc.lowerChar_eq]
    rfl

/-- **Lower-casing twice is lower-casing once.** -/
theorem lower_lower (s : String) : lower (lower s) = lower s := by
  unfold lower lowerChars
  rw [String.toList_ofList, lowerFrom_eq_self fun c hc => isLowered_of_mem_lowerFrom hc]

/-! ### Signs -/

/-- The forms of all runs stand behind the ASCII capitals. -/
theorem lowerRuns_isBehindCapitals :
    lowerRuns.all (fun r => decide (0x5A < r.form r.first)) = true := by
  decide +kernel

/-- **Signs before the small letters** are the lower-case forms of no other characters. -/
theorem lowerChar_eq_self_of_lt {c : Char} (h : (lowerChar c).toNat < 0x5B) : lowerChar c = c := by
  obtain ⟨hlo, -⟩ | ⟨r, hr, hn, hform⟩ | hself := lowerChar_cases c
  · omega
  · have hset : r.isSettled = true := List.all_eq_true.1 lowerRuns_isSettled r hr
    have hbehind := List.all_eq_true.1 lowerRuns_isBehindCapitals r hr
    rw [hform, toNat_ofNat_form hset hn] at h
    simp only [CaseRun.contains, Bool.and_eq_true, decide_eq_true_eq] at hn hbehind
    simp only [CaseRun.form] at h hbehind
    -- the form of a letter does not stand before that of the first one
    omega
  · exact hself

/-- A sign or capital below the small letters of ASCII that is its own form comes from no other
character. -/
theorem mem_lowerAt_iff_of_lt {before after : List Char} {c d : Char} (hlt : d.toNat < 0x5B)
    (hself : lowerChar d = d) : d ∈ lowerAt before c after ↔ d = c := by
  -- what has a rule of its own is far above
  have hne : ∀ e : Char, 0x5B ≤ e.toNat → d ≠ e := by
    rintro e he rfl
    omega
  unfold lowerAt
  split
  next hsigma =>
    -- neither a sigma nor a form of it is a sign
    have hform : d ≠ lowerSigma before after := by
      unfold lowerSigma
      split
      · exact hne 'ς' (by decide)
      · exact hne 'σ' (by decide)
    rw [List.mem_singleton, hsigma]
    exact iff_of_false hform (hne 'Σ' (by decide))
  split
  next hdotted =>
    rw [hdotted]
    refine iff_of_false ?_ (hne 'İ' (by decide))
    rw [List.mem_cons, List.mem_singleton, not_or]
    exact ⟨hne 'i' (by decide), hne '\u0307' (by decide)⟩
  · -- every other character has one form, which is not below unless the character is
    rw [List.mem_singleton]
    constructor
    · intro hd
      rw [hd]
      exact lowerChar_eq_self_of_lt (hd ▸ hlt)
    · rintro rfl
      exact hself.symm

/-- **Lower-casing neither drops signs nor brings them in.** -/
theorem mem_lowerFrom_iff_of_lt {before cs : List Char} {d : Char} (hlt : d.toNat < 0x5B)
    (hself : lowerChar d = d) : d ∈ lowerFrom before cs ↔ d ∈ cs := by
  induction cs generalizing before with
  | nil => exact Iff.rfl
  | cons c after ih =>
    rw [lowerFrom, List.mem_append, mem_lowerAt_iff_of_lt hlt hself, ih, List.mem_cons]

/-! ### Keys of parameters -/

/-- The marker is the lower-case form of no other character. -/
theorem lowerChar_ne_marker {c : Char} (hc : c ≠ marker) : lowerChar c ≠ marker := by
  intro h
  have hsign : (lowerChar c).toNat < 0x5B := by
    rw [h]
    decide
  exact hc ((lowerChar_eq_self_of_lt hsign).symm.trans h)

/-- Lower-casing brings no marker to the front, since only the marker has the marker for its
form. -/
theorem head?_lowerChars_ne_marker {cs : List Char} (h : cs.head? ≠ some marker) :
    (lowerChars cs).head? ≠ some marker := by
  cases cs with
  | nil => exact h
  | cons c after =>
    have hc : c ≠ marker := fun hc => h (by rw [hc]; rfl)
    have hne : lowerChar c ≠ marker := lowerChar_ne_marker hc
    rw [lowerChars, lowerFrom, lowerAt]
    -- neither a form of sigma nor of the dotted capital is a marker
    split
    · unfold lowerSigma
      split <;> simp [marker]
    split
    · simp [marker]
    · simpa using hne

end QueryGateway.Text

namespace QueryGateway

open Text

/-- **The key of a key** is the key itself. -/
theorem parameterKey_parameterKey (name : String) :
    parameterKey (parameterKey name) = parameterKey name := by
  -- the markers in front have been stripped once
  have hhead : ((name.toList.dropWhile (· = marker)).head?) ≠ some marker := by
    intro h
    have hnot := List.head?_dropWhile_not (fun c => decide (c = marker)) name.toList
    rw [h] at hnot
    simp at hnot
  -- lower-casing brings no marker to the front, so there is nothing left to strip
  have hstrip : stripMarkers (parameterKey name) = parameterKey name := by
    have hkey : (parameterKey name).toList.head? ≠ some marker := by
      rw [parameterKey, lower, String.toList_ofList, stripMarkers, String.toList_ofList]
      exact head?_lowerChars_ne_marker hhead
    rw [stripMarkers]
    cases hcs : (parameterKey name).toList with
    | nil => rw [← String.ofList_toList (s := parameterKey name), hcs]; rfl
    | cons c cs =>
      rw [hcs, List.head?_cons] at hkey
      rw [List.dropWhile_cons_of_neg (by simpa using hkey), ← hcs, String.ofList_toList]
  rw [show parameterKey (parameterKey name) = lower (stripMarkers (parameterKey name)) from rfl,
    hstrip]
  exact lower_lower _

end QueryGateway
