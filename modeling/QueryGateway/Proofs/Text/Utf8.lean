import QueryGateway.Text.Utf8

/-!
# Octets are read as they are written

UTF-8 is written with `encode` and read with `decode?`. `decode?_eq_some_iff` says that octets are
read as a text exactly if they are the octets of that text. What a character looks like in octets is
said once (`Form`): every character is written in a form, and in every form the first octets are
read as the character, so that reading goes along the text character by character.
-/

namespace QueryGateway.Text.Utf8

/-! ### Forms of characters -/

theorem isTail_iff {b : UInt8} : isTail b = true ↔ 0x80 ≤ b.toNat ∧ b.toNat ≤ 0xBF := by
  simp [isTail, UInt8.le_iff_toNat_le]

/-- The range of a second octet. Four of the first octets narrow it. -/
structure IsSecond (a b : UInt8) : Prop where
  isTail : 0x80 ≤ b.toNat ∧ b.toNat ≤ 0xBF
  not_two : a.toNat = 0xE0 → 0xA0 ≤ b.toNat
  not_surrogate : a.toNat = 0xED → b.toNat ≤ 0x9F
  not_three : a.toNat = 0xF0 → 0x90 ≤ b.toNat
  not_beyond : a.toNat = 0xF4 → b.toNat ≤ 0x8F

/-- What the second octet may be, as one condition: a tail, and within the bounds that the first
octet sets. -/
theorem isSecond_iff {a b : UInt8} : isSecond a b = true ↔ IsSecond a b := by
  have hiff : ∀ n : UInt8, a = n ↔ a.toNat = n.toNat := fun n => UInt8.toNat_inj.symm
  simp only [isSecond, secondRange, Bool.and_eq_true, decide_eq_true_eq, UInt8.le_iff_toNat_le,
    hiff, UInt8.reduceToNat]
  constructor
  · intro h
    refine ⟨?_, fun ha => ?_, fun ha => ?_, fun ha => ?_, fun ha => ?_⟩
    · -- either direction is a comparison of bounds for each kind of first octet
      repeat' split at h
      all_goals simp only [UInt8.reduceToNat] at h; omega
    all_goals simp [ha] at h; omega
  · rintro ⟨h, h₁, h₂, h₃, h₄⟩
    repeat' split
    all_goals simp only [UInt8.reduceToNat]; omega

/-- **The forms of characters** by their numbers. -/
inductive Form : Octets → Nat → Prop where
  | one (a : UInt8) (n : Nat) (ha : a.toNat < 0x80) (hn : n = a.toNat) : Form [a] n
  | two (a b : UInt8) (n : Nat) (ha : 0xC2 ≤ a.toNat ∧ a.toNat ≤ 0xDF)
      (hb : 0x80 ≤ b.toNat ∧ b.toNat ≤ 0xBF) (hn : n = a.toNat % 32 * 64 + b.toNat % 64) :
    Form [a, b] n
  | three (a b c : UInt8) (n : Nat) (ha : 0xE0 ≤ a.toNat ∧ a.toNat ≤ 0xEF) (hb : IsSecond a b)
      (hc : 0x80 ≤ c.toNat ∧ c.toNat ≤ 0xBF)
      (hn : n = (a.toNat % 16 * 64 + b.toNat % 64) * 64 + c.toNat % 64) :
    Form [a, b, c] n
  | four (a b c d : UInt8) (n : Nat) (ha : 0xF0 ≤ a.toNat ∧ a.toNat ≤ 0xF4) (hb : IsSecond a b)
      (hc : 0x80 ≤ c.toNat ∧ c.toNat ≤ 0xBF) (hd : 0x80 ≤ d.toNat ∧ d.toNat ≤ 0xBF)
      (hn : n = ((a.toNat % 8 * 64 + b.toNat % 64) * 64 + c.toNat % 64) * 64 + d.toNat % 64) :
    Form [a, b, c, d] n

namespace Form

/-- What a form stands for is a character: neither a surrogate, which the second octet rules out,
nor a number beyond the last one. -/
theorem isValidChar {octets : Octets} {n : Nat} (h : Form octets n) : n.isValidChar := by
  unfold Nat.isValidChar
  cases h with
  | one a _ ha hn => omega
  | two a b _ ha hb hn => omega
  | three a b c _ ha hb hc hn =>
    obtain ⟨hb, h₁, h₂, h₃, h₄⟩ := hb
    omega
  | four a b c d _ ha hb hc hd hn =>
    obtain ⟨hb, h₁, h₂, h₃, h₄⟩ := hb
    omega

theorem ofNat_eq {n : Nat} {b : UInt8} (h : n = b.toNat) : UInt8.ofNat n = b := by
  rw [h, UInt8.ofNat_toNat]

/-- **A form is what its character is written as.** -/
theorem utf8EncodeChar_eq {octets : Octets} {n : Nat} (h : Form octets n) :
    String.utf8EncodeChar (Char.ofNat n) = octets := by
  -- the number is that of a character, so it is kept
  have hval : (Char.ofNat n).val.toNat = n := by
    rw [Char.ofNat, dif_pos h.isValidChar]
    rfl
  rw [String.utf8EncodeChar, hval]
  -- which of the four lengths it has is told by the bounds of the form, and so are the octets
  cases h with
  | one a _ ha hn => rw [if_pos (by omega), ofNat_eq hn]
  | two a b _ ha hb hn =>
    rw [if_neg (by omega), if_pos (by omega), ofNat_eq (b := a) (by omega),
      ofNat_eq (b := b) (by omega)]
  | three a b c _ ha hb hc hn =>
    obtain ⟨hb, h₁, h₂, h₃, h₄⟩ := hb
    rw [if_neg (by omega), if_neg (by omega), if_pos (by omega), ofNat_eq (b := a) (by omega),
      ofNat_eq (b := b) (by omega), ofNat_eq (b := c) (by omega)]
  | four a b c d _ ha hb hc hd hn =>
    obtain ⟨hb, h₁, h₂, h₃, h₄⟩ := hb
    rw [if_neg (by omega), if_neg (by omega), if_neg (by omega), ofNat_eq (b := a) (by omega),
      ofNat_eq (b := b) (by omega), ofNat_eq (b := c) (by omega), ofNat_eq (b := d) (by omega)]

theorem toNat_ofNat {n : Nat} (h : n < 256) : (UInt8.ofNat n).toNat = n :=
  UInt8.toNat_ofNat_of_lt' h

/-- **Every character is written in a form.** -/
theorem utf8EncodeChar (c : Char) : Form (String.utf8EncodeChar c) c.toNat := by
  -- a character is below the surrogates or above them, and not beyond the last number
  have hvalid : c.val.toNat.isValidChar := c.valid
  unfold Nat.isValidChar at hvalid
  rw [String.utf8EncodeChar]
  change Form _ c.val.toNat
  generalize c.val.toNat = n at hvalid
  -- the numbers of the octets are small, so that they can be read off
  split
  · refine .one _ _ ?_ ?_ <;> rw [toNat_ofNat (by omega)]
    omega
  split
  · refine .two _ _ _ ?_ ?_ ?_ <;> repeat rw [toNat_ofNat (by omega)]
    all_goals omega
  split
  · refine .three _ _ _ _ ?_ ⟨?_, ?_, ?_, ?_, ?_⟩ ?_ ?_ <;> repeat rw [toNat_ofNat (by omega)]
    all_goals omega
  · refine .four _ _ _ _ _ ?_ ⟨?_, ?_, ?_, ?_, ?_⟩ ?_ ?_ ?_ <;> repeat rw [toNat_ofNat (by omega)]
    all_goals omega

/-- **A form is read as its character,** whatever comes behind. -/
theorem lead_eq {a : UInt8} {more : Octets} {n : Nat} (h : Form (a :: more) n) (rest : Octets) :
    lead a (more ++ rest) = .char (Char.ofNat n) (more.length + 1) := by
  unfold lead
  simp only [UInt8.lt_iff_toNat_lt, UInt8.le_iff_toNat_le, Bool.and_eq_true, decide_eq_true_eq,
    UInt8.reduceToNat, isTail_iff]
  -- the first octet tells the length, and the others are as the length asks
  cases h with
  | one a _ ha hn => rw [if_pos ha, hn]; rfl
  | two a b _ ha hb hn =>
    rw [if_neg (by omega), if_pos ha, hn]
    simp only [List.cons_append, List.nil_append, if_pos hb]
    rfl
  | three a b c _ ha hb hc hn =>
    rw [if_neg (by omega), if_neg (by omega), if_pos ha, hn]
    simp only [List.cons_append, List.nil_append, if_pos (isSecond_iff.2 hb), if_pos hc]
    rfl
  | four a b c d _ ha hb hc hd hn =>
    rw [if_neg (by omega), if_neg (by omega), if_neg (by omega), if_pos ha, hn]
    simp only [List.cons_append, List.nil_append, if_pos (isSecond_iff.2 hb), if_pos hc, if_pos hd]
    rfl

/-- **What is read as a character** is in a form. -/
theorem exists_of_lead {a : UInt8} {rest : Octets} {c : Char} {size : Nat}
    (h : lead a rest = .char c size) :
    ∃ more last n, rest = more ++ last ∧ Form (a :: more) n ∧ c = Char.ofNat n ∧
      size = more.length + 1 := by
  unfold lead at h
  simp only [UInt8.lt_iff_toNat_lt, UInt8.le_iff_toNat_le, Bool.and_eq_true, decide_eq_true_eq,
    UInt8.reduceToNat, isTail_iff] at h
  -- a branch that gives no character ends the argument
  split at h
  -- one octet
  next ha =>
    obtain ⟨rfl, rfl⟩ := Lead.char.inj h
    exact ⟨[], rest, _, rfl, .one a _ ha rfl, rfl, rfl⟩
  split at h
  -- two octets, the second of which must be a tail
  next ha =>
    rcases rest with _ | ⟨b, last⟩
    · cases h
    dsimp only at h
    split at h
    next hb =>
      obtain ⟨rfl, rfl⟩ := Lead.char.inj h
      exact ⟨[b], last, _, rfl, .two a b _ ha hb rfl, rfl, rfl⟩
    · cases h
  split at h
  -- three octets; if there are fewer, or they are not as they should be, the lead is no character
  next ha =>
    rcases rest with _ | ⟨b, _ | ⟨c, last⟩⟩
    · cases h
    · dsimp only at h
      split at h <;> cases h
    dsimp only at h
    split at h
    next hb =>
      split at h
      next hc =>
        obtain ⟨rfl, rfl⟩ := Lead.char.inj h
        exact ⟨[b, c], last, _, rfl, .three a b c _ ha (isSecond_iff.1 hb) hc rfl, rfl, rfl⟩
      · cases h
    · cases h
  split at h
  -- four octets, in the same way
  next ha =>
    rcases rest with _ | ⟨b, _ | ⟨c, _ | ⟨d, last⟩⟩⟩
    · cases h
    · dsimp only at h
      split at h <;> cases h
    · dsimp only at h
      split at h
      · split at h <;> cases h
      · cases h
    dsimp only at h
    split at h
    next hb =>
      split at h
      next hc =>
        split at h
        next hd =>
          obtain ⟨rfl, rfl⟩ := Lead.char.inj h
          have hform := Form.four a b c d _ ha (isSecond_iff.1 hb) hc hd rfl
          exact ⟨[b, c, d], last, _, rfl, hform, rfl, rfl⟩
        · cases h
      · cases h
    · cases h
  · cases h

end Form

/-! ### Texts -/

/-- The loop over the octets of an array, which collects them from the back. -/
theorem toList_loop_eq (bs : ByteArray) (i : Nat) (acc : Octets) :
    ByteArray.toList.loop bs i acc = acc.reverse ++ bs.data.toList.drop i := by
  fun_induction ByteArray.toList.loop bs i acc with
  -- the octet at the index is the first of those that are left
  | case1 i acc hi ih =>
    have hi' : i < bs.data.toList.length := hi
    have hget : bs.get! i = bs.data.toList[i] := by
      rw [Array.getElem_toList]
      exact getElem!_pos bs.data i hi
    rw [ih, List.drop_eq_getElem_cons hi', hget]
    simp
  | case2 i acc hi =>
    have hi' : bs.data.toList.length ≤ i := Nat.not_lt.1 hi
    rw [List.drop_eq_nil_of_le hi', List.append_nil]

/-- **A text is written character by character.** -/
theorem encode_ofList (cs : List Char) :
    encode (String.ofList cs) = cs.flatMap String.utf8EncodeChar := by
  rw [encode, ByteArray.toList, toList_loop_eq, List.reverse_nil, List.nil_append, List.drop_zero]
  exact List.toList_data_toByteArray

/-- **Decoding is the inverse of encoding,** in both directions: what decodes is what its characters
are written as, and what characters are written as decodes to them. -/
theorem decodeChars?_eq_some_iff {octets : Octets} {cs : List Char} :
    decodeChars? octets = some cs ↔ octets = cs.flatMap String.utf8EncodeChar := by
  constructor
  · -- the characters are read one by one, and each has taken the octets that it is written as
    intro h
    fun_induction decodeChars? octets generalizing cs with
    | case1 =>
      obtain rfl := Option.some.inj h
      rfl
    | case2 a rest c size hlead ih =>
      obtain ⟨more, last, n, rfl, hform, rfl, rfl⟩ := Form.exists_of_lead hlead
      obtain ⟨cs', hcs', rfl⟩ := Option.map_eq_some_iff.1 h
      rw [Nat.add_sub_cancel, List.drop_left] at hcs' ih
      rw [List.flatMap_cons, hform.utf8EncodeChar_eq, ← ih hcs', List.cons_append]
    | case3 a rest size hlead => cases h
  · -- each character is written in a form, which is read back whatever comes behind
    rintro rfl
    induction cs with
    | nil => rw [List.flatMap_nil, decodeChars?]
    | cons c cs ih =>
      have hform := Form.utf8EncodeChar c
      rw [List.flatMap_cons]
      generalize String.utf8EncodeChar c = octets at hform
      rcases octets with _ | ⟨a, more⟩
      · cases hform
      rw [List.cons_append, decodeChars?, hform.lead_eq, Char.ofNat_toNat]
      dsimp only
      rw [Nat.add_sub_cancel, List.drop_left, ih]
      rfl

/-- **Octets are read as a text** exactly if they are the octets of that text. -/
theorem decode?_eq_some_iff {octets : Octets} {s : String} :
    decode? octets = some s ↔ octets = encode s := by
  rw [decode?, Option.map_eq_some_iff]
  constructor
  · rintro ⟨cs, hcs, rfl⟩
    rw [encode_ofList, decodeChars?_eq_some_iff.1 hcs]
  · rintro rfl
    refine ⟨s.toList, decodeChars?_eq_some_iff.2 ?_, String.ofList_toList⟩
    rw [← encode_ofList, String.ofList_toList]

theorem decode?_encode (s : String) : decode? (encode s) = some s :=
  decode?_eq_some_iff.2 rfl

end QueryGateway.Text.Utf8
