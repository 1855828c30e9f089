import QueryGateway.Proofs.Settings.Registry

/-!
# Aliases in one text

The aliases of a tenant go to the listing query as one text, with an equals sign in each and
semicolons between them. Nothing keeps these signs out of the abbreviations and the names, so one
text can stand for different aliases (`aliasMappings_not_injective`).

Two lists of aliases with one text can be told apart up to the first alias in which they differ.
There one of the two reads on where the other has reached a sign (`DatabaseAlias.RunsInto`), and the
lists run together (`RunTogether`). That is the only way, so the text determines aliases whose
abbreviations have no equals sign and whose names have no semicolon, and `aliasMappings_ne` says so.

The text of two or more aliases can always be read differently: it is that of one alias as well,
whose name takes in all that follows the first equals sign. That alias is accepted too, because its
parts begin and end where those of accepted aliases do (`IsSettled.append_following`).
-/

namespace QueryGateway

open Text

/-! ### The characters of the text -/

/-- The characters of an alias in the text. -/
def DatabaseAlias.chars (a : DatabaseAlias) : List Char :=
  a.abbreviation.toList ++ '=' :: a.actualName.toList

/-- The characters that follow an alias when there are more. -/
def following (rest : List DatabaseAlias) : List Char :=
  rest.flatMap fun a => ';' :: a.chars

/-- The text of aliases is that of the first one and what follows it, with a semicolon in front of
each. -/
theorem toList_aliasMappings_cons {t : Tenant} {a : DatabaseAlias} {rest : List DatabaseAlias}
    (h : t.databases = a :: rest) : t.aliasMappings.toList = a.chars ++ following rest := by
  rw [Tenant.aliasMappings, h]
  -- the induction goes from one alias to the next, whatever tenant they come from
  clear h
  induction rest generalizing a with
  | nil => simp [join, DatabaseAlias.chars, following]
  | cons b rest ih =>
    have hrest := @ih b
    rw [List.map_cons] at hrest
    rw [List.map_cons, List.map_cons, join, String.toList_append, String.toList_append, hrest]
    simp [DatabaseAlias.chars, following]

theorem aliasMappings_of_nil {t : Tenant} (h : t.databases = []) : t.aliasMappings = "" := by
  rw [Tenant.aliasMappings, h]
  rfl

/-! ### Lists that run together -/

/-- **An alias that another one runs into.** The other abbreviation reads on at the equals sign, or,
of two equal abbreviations, the other name reads on at the semicolon. -/
inductive DatabaseAlias.RunsInto (a b : DatabaseAlias) : Prop where
  | abbreviation (more : String) (h : b.abbreviation = a.abbreviation ++ "=" ++ more)
  | name (more : String) (habbreviation : b.abbreviation = a.abbreviation)
      (h : b.actualName = a.actualName ++ ";" ++ more)

/-- **Lists that run together** at the first alias in which they differ: one of the two aliases
there runs into the other. What is behind them does not matter. -/
def RunTogether (l m : List DatabaseAlias) : Prop :=
  ∃ shared a b rest rest', l = shared ++ a :: rest ∧ m = shared ++ b :: rest' ∧
    (a.RunsInto b ∨ b.RunsInto a)

/-- **An alias without signs** where they would be misread: none that ends the abbreviation early,
and none that ends the name. -/
structure DatabaseAlias.IsPlain (a : DatabaseAlias) : Prop where
  abbreviation : '=' ∉ a.abbreviation.toList
  actualName : ';' ∉ a.actualName.toList

/-- A text of two parts, the second of which begins with a sign if there is one, is cut in one
place, or one of the first parts reads on at the sign. -/
theorem cut_cases {sign : Char} {s t : String} {u v : List Char}
    (hu : ∀ c, u.head? = some c → c = sign) (hv : ∀ c, v.head? = some c → c = sign)
    (h : s.toList ++ u = t.toList ++ v) :
    s = t ∧ u = v ∨ (∃ more : String, t = s ++ String.singleton sign ++ more) ∨
      ∃ more : String, s = t ++ String.singleton sign ++ more := by
  -- one of the first parts reaches at least as far as the other
  rcases List.append_eq_append_iff.1 h with ⟨more, ht, hmore⟩ | ⟨more, hs, hmore⟩
  · cases more with
    | nil =>
      rw [List.append_nil] at ht
      exact Or.inl ⟨String.toList_inj.1 ht.symm, hmore⟩
    | cons c more =>
      -- it reads on at what the other's second part begins with, which is the sign
      obtain rfl : c = sign := hu c (by rw [hmore]; rfl)
      refine Or.inr (Or.inl ⟨String.ofList more, String.toList_inj.1 ?_⟩)
      rw [ht]
      simp
  · cases more with
    | nil =>
      rw [List.append_nil] at hs
      exact Or.inl ⟨String.toList_inj.1 hs, hmore.symm⟩
    | cons c more =>
      obtain rfl : c = sign := hv c (by rw [hmore]; rfl)
      refine Or.inr (Or.inr ⟨String.ofList more, String.toList_inj.1 ?_⟩)
      rw [hs]
      simp

theorem head?_following {rest : List DatabaseAlias} (c : Char)
    (h : (following rest).head? = some c) : c = ';' := by
  cases rest with
  | nil => cases h
  | cons a rest => exact (Option.some.inj h).symm

/-- **One step along two texts:** the aliases are the same, or one runs into the other. -/
theorem DatabaseAlias.eq_or_runsInto {a b : DatabaseAlias} {rest rest' : List DatabaseAlias}
    (h : a.chars ++ following rest = b.chars ++ following rest') :
    a = b ∧ following rest = following rest' ∨ a.RunsInto b ∨ b.RunsInto a := by
  have hequals : ∀ (u : List Char) c, ('=' :: u).head? = some c → c = '=' := fun u c hc =>
    (Option.some.inj hc).symm
  rw [chars, chars, List.append_assoc, List.append_assoc] at h
  -- the abbreviations end at one equals sign, or one of them reads on over it
  rcases cut_cases (hequals _) (hequals _) h with ⟨habbr, hrest⟩ | ⟨more, hmore⟩ | ⟨more, hmore⟩
  · have hnames : a.actualName.toList ++ following rest =
        b.actualName.toList ++ following rest' := (List.cons.inj hrest).2
    -- then the names end at one semicolon or at the end, or one of them reads on
    rcases cut_cases head?_following head?_following hnames with
      ⟨hname, hfollowing⟩ | ⟨more, hmore⟩ | ⟨more, hmore⟩
    · left
      refine ⟨?_, hfollowing⟩
      obtain ⟨abbreviation, name⟩ := a
      obtain ⟨abbreviation', name'⟩ := b
      dsimp only at habbr hname
      rw [habbr, hname]
    · exact Or.inr (Or.inl (.name more habbr.symm hmore))
    · exact Or.inr (Or.inr (.name more habbr hmore))
  · exact Or.inr (Or.inl (.abbreviation more hmore))
  · exact Or.inr (Or.inr (.abbreviation more hmore))

/-- **One text has one reading** up to aliases that run together. The induction goes along both
lists as long as the aliases are the same, and the first place where they are not is one of
these. -/
theorem eq_or_runTogether_of_following {l m : List DatabaseAlias} (h : following l = following m) :
    l = m ∨ RunTogether l m := by
  induction l generalizing m with
  | nil =>
    -- the text of an alias is not empty, so the lists end together
    cases m with
    | nil => exact Or.inl rfl
    | cons b m => cases h
  | cons a l ih =>
    cases m with
    | nil => cases h
    | cons b m =>
      have hchars : a.chars ++ following l = b.chars ++ following m := (List.cons.inj h).2
      rcases DatabaseAlias.eq_or_runsInto hchars with ⟨rfl, hrest⟩ | hruns
      · -- the lists go on alike, and what is found further behind is found here, with one more
        -- alias before it
        rcases ih hrest with rfl | ⟨shared, b, c, rest, rest', rfl, rfl, hruns⟩
        · exact Or.inl rfl
        · exact Or.inr ⟨a :: shared, b, c, rest, rest', rfl, rfl, hruns⟩
      · exact Or.inr ⟨[], a, b, l, m, rfl, rfl, hruns⟩

/-- **One text for two tenants** means that they have the same aliases, or aliases that run
together. -/
theorem eq_or_runTogether {t u : Tenant} (h : t.aliasMappings = u.aliasMappings) :
    t.databases = u.databases ∨ RunTogether t.databases u.databases := by
  refine eq_or_runTogether_of_following ?_
  -- an alias has an equals sign at least
  have hne : ∀ (a : DatabaseAlias) rest, a.chars ++ following rest ≠ [] := fun a rest => by
    simp [DatabaseAlias.chars]
  have hchars := congrArg String.toList h
  -- no aliases have the empty text, and no others have it
  cases ht : t.databases with
  | nil =>
    cases hu : u.databases with
    | nil => rfl
    | cons b rest' =>
      rw [aliasMappings_of_nil ht, toList_aliasMappings_cons hu] at hchars
      exact absurd hchars.symm (hne b rest')
  | cons a rest =>
    cases hu : u.databases with
    | nil =>
      rw [aliasMappings_of_nil hu, toList_aliasMappings_cons ht] at hchars
      exact absurd hchars (hne a rest)
    | cons b rest' =>
      rw [toList_aliasMappings_cons ht, toList_aliasMappings_cons hu] at hchars
      exact congrArg (';' :: ·) hchars

theorem DatabaseAlias.IsPlain.not_runsInto {a b : DatabaseAlias} (h : b.IsPlain) :
    ¬ a.RunsInto b := by
  rintro (⟨more, hmore⟩ | ⟨more, -, hmore⟩)
  · refine h.abbreviation ?_
    rw [hmore]
    simp
  · refine h.actualName ?_
    rw [hmore]
    simp

/-- **Plain aliases** do not run together. -/
theorem not_runTogether_of_isPlain {l m : List DatabaseAlias} (hl : ∀ a ∈ l, a.IsPlain)
    (hm : ∀ a ∈ m, a.IsPlain) : ¬ RunTogether l m := by
  rintro ⟨shared, a, b, rest, rest', rfl, rfl, hruns | hruns⟩
  · exact (hm b (by simp)).not_runsInto hruns
  · exact (hl a (by simp)).not_runsInto hruns

/-! ### Aliases that are accepted -/

/-- A part of an alias that is accepted: there is something, without blanks around it. -/
structure IsSettled (cs : List Char) : Prop where
  trimmed : IsTrimmed cs
  ne_nil : cs ≠ []

theorem isSettled_trim {s : String} (h : isAllBlank s = false) : IsSettled (trim s).toList := by
  refine ⟨isTrimmed_trim s, fun hnil => ?_⟩
  rw [trim, String.toList_ofList] at hnil
  have hblank : isAllBlank s = true := trimChars_eq_nil_iff.1 hnil
  rw [h] at hblank
  cases hblank

namespace IsSettled

variable {cs ds : List Char}

theorem isAllBlank_eq {s : String} (h : IsSettled s.toList) : isAllBlank s = false := by
  rw [isAllBlank, Bool.eq_false_iff, ne_eq, ← trimChars_eq_nil_iff, trimChars_eq_self h.trimmed]
  exact h.ne_nil

/-- Only the ends of a text matter. -/
theorem append (h : IsSettled cs) (between : List Char) (h' : IsSettled ds) :
    IsSettled (cs ++ (between ++ ds)) := by
  refine ⟨⟨fun c hc => ?_, fun c hc => ?_⟩, by simp [h.ne_nil]⟩
  · rw [List.head?_append_of_ne_nil _ h.ne_nil] at hc
    exact h.trimmed.head c hc
  · rw [List.getLast?_append_of_ne_nil _ (by simp [h'.ne_nil]),
      List.getLast?_append_of_ne_nil _ h'.ne_nil] at hc
    exact h'.trimmed.last c hc

end IsSettled

/-- **An alias of accepted settings:** neither of its parts is blank, and neither has blanks around
it any more. -/
structure DatabaseAlias.IsAccepted (a : DatabaseAlias) : Prop where
  abbreviation : IsSettled a.abbreviation.toList
  actualName : IsSettled a.actualName.toList

/-- **A name stays settled** with the aliases that follow it. -/
theorem IsSettled.append_following {cs : List Char} (h : IsSettled cs)
    {rest : List DatabaseAlias} (hrest : ∀ a ∈ rest, a.IsAccepted) :
    IsSettled (cs ++ following rest) := by
  -- one alias after the other is added at the end of the name, which stays settled
  induction rest generalizing cs with
  | nil =>
    rw [following, List.flatMap_nil, List.append_nil]
    exact h
  | cons a rest ih =>
    rw [List.forall_mem_cons] at hrest
    have hnext : cs ++ following (a :: rest) =
        cs ++ (';' :: a.abbreviation.toList ++ ['='] ++ a.actualName.toList) ++ following rest := by
      simp [following, DatabaseAlias.chars]
    rw [hnext]
    exact ih (h.append _ hrest.1.actualName) hrest.2

/-- **The aliases of tenants are accepted.** -/
theorem Settings.IsValid.isAccepted {s : Settings} (h : s.IsValid) {t : Tenant}
    (ht : t ∈ (TenantRegistry.ofSettings s).tenants) : ∀ a ∈ t.databases, a.IsAccepted := by
  rw [TenantRegistry.tenants_ofSettings h.keys] at ht
  obtain ⟨c, hc, rfl⟩ := List.mem_map.1 ht
  intro a ha
  obtain ⟨configured, hconfigured, rfl⟩ := List.mem_map.1 ha
  obtain ⟨habbreviation, hname⟩ := h.aliases c hc configured hconfigured
  exact ⟨isSettled_trim habbreviation, isSettled_trim hname⟩

/-! ### One alias for all -/

/-- Settings with one context, which has one alias. -/
def soleSettings (a : DatabaseAlias) : Settings where
  contexts := [("sole", { databases := [⟨a.abbreviation, a.actualName⟩] })]

/-- Settings with a single context and a single alias are accepted, as soon as the alias is. -/
theorem soleSettings_validate {a : DatabaseAlias} (h : a.IsAccepted) :
    (soleSettings a).validate = .ok () := by
  have hroot : isAllBlank "data-sources" = false := by decide
  have hkey : isAllBlank "sole" = false := by decide
  -- the root and the key of the context are not blank, and one key is not repeated
  refine Settings.validate_eq_ok_iff.2 ⟨hroot, ?_, List.nodup_singleton _, ?_⟩
  · intro c hc
    rw [List.mem_singleton.1 hc]
    exact hkey
  · intro c hc configured hconfigured
    rw [List.mem_singleton.1 hc] at hconfigured
    rw [List.mem_singleton.1 hconfigured]
    exact ⟨h.abbreviation.isAllBlank_eq, h.actualName.isAllBlank_eq⟩

/-- Such settings have a tenant with the alias as it is, since accepted aliases are trimmed. -/
theorem exists_tenant_soleSettings {a : DatabaseAlias} (h : a.IsAccepted) :
    ∃ u ∈ (TenantRegistry.ofSettings (soleSettings a)).tenants, u.databases = [a] := by
  have hvalid := Settings.validate_eq_ok_iff.1 (soleSettings_validate h)
  have hdatabases :
      (Tenant.ofContext "sole" { databases := [⟨a.abbreviation, a.actualName⟩] }).databases =
        [a] := by
    rw [Tenant.ofContext, List.map_singleton, trim_eq_self h.abbreviation.trimmed,
      trim_eq_self h.actualName.trimmed]
  refine ⟨_, ?_, hdatabases⟩
  rw [TenantRegistry.tenants_ofSettings hvalid.keys]
  exact List.mem_singleton_self _

/-- **The text of several aliases is that of one.** -/
theorem exists_sole_of_two_le {s : Settings} (h : s.IsValid) {t : Tenant}
    (ht : t ∈ (TenantRegistry.ofSettings s).tenants) (hlength : 2 ≤ t.databases.length) :
    ∃ s' : Settings, s'.validate = .ok () ∧ ∃ u ∈ (TenantRegistry.ofSettings s').tenants,
      u.databases.length = 1 ∧ u.aliasMappings = t.aliasMappings := by
  have haccepted := h.isAccepted ht
  cases hdatabases : t.databases with
  | nil =>
    rw [hdatabases] at hlength
    cases hlength
  | cons a rest =>
    rw [hdatabases, List.forall_mem_cons] at haccepted
    obtain ⟨ha, hrest⟩ := haccepted
    -- the one alias has all that follows for its name
    let sole : DatabaseAlias :=
      ⟨a.abbreviation, String.ofList (a.actualName.toList ++ following rest)⟩
    have hsole : sole.IsAccepted := by
      refine ⟨ha.abbreviation, ?_⟩
      rw [String.toList_ofList]
      exact ha.actualName.append_following hrest
    obtain ⟨u, hu, hone⟩ := exists_tenant_soleSettings hsole
    refine ⟨_, soleSettings_validate hsole, u, hu, by rw [hone]; rfl, String.toList_inj.1 ?_⟩
    rw [toList_aliasMappings_cons hone, toList_aliasMappings_cons hdatabases]
    simp [sole, DatabaseAlias.chars, following]

/-! ### What the text determines -/

/-- Settings of four contexts, of which two and two have one text. -/
def ambiguousSettings : Settings where
  contexts := [("one", { databases := [⟨"a", "b=c"⟩] }), ("two", { databases := [⟨"a=b", "c"⟩] }),
    ("three", { databases := [⟨"a", "b"⟩, ⟨"c", "d"⟩] }),
    ("four", { databases := [⟨"a", "b;c=d"⟩] })]

/-- A tenant whose context says nothing but its aliases. -/
def tenantOfAliases (key : String) (databases : List DatabaseAlias) : Tenant :=
  ⟨key, "", "", databases⟩

theorem ambiguousSettings_validate : ambiguousSettings.validate = .ok () :=
  except_eq_ok_of_toOption (by decide +kernel)

theorem ambiguousSettings_tenants :
    (TenantRegistry.ofSettings ambiguousSettings).tenants =
      [tenantOfAliases "one" [⟨"a", "b=c"⟩], tenantOfAliases "two" [⟨"a=b", "c"⟩],
        tenantOfAliases "three" [⟨"a", "b"⟩, ⟨"c", "d"⟩],
        tenantOfAliases "four" [⟨"a", "b;c=d"⟩]] := by
  decide +kernel

/-- **One text for different aliases:** for one pair and another, and for two pairs and one. -/
theorem aliasMappings_not_injective :
    ambiguousSettings.validate = .ok () ∧
      let tenants := (TenantRegistry.ofSettings ambiguousSettings).tenants
      (∃ t ∈ tenants, ∃ u ∈ tenants, t.databases = [⟨"a", "b=c"⟩] ∧
        u.databases = [⟨"a=b", "c"⟩] ∧ t.aliasMappings = u.aliasMappings) ∧
      ∃ t ∈ tenants, ∃ u ∈ tenants, t.databases = [⟨"a", "b"⟩, ⟨"c", "d"⟩] ∧
        u.databases = [⟨"a", "b;c=d"⟩] ∧ t.aliasMappings = u.aliasMappings := by
  -- with one text and different aliases they can only run together
  refine ⟨ambiguousSettings_validate, ?_⟩
  dsimp only
  rw [ambiguousSettings_tenants]
  refine ⟨⟨tenantOfAliases "one" [⟨"a", "b=c"⟩], by simp, tenantOfAliases "two" [⟨"a=b", "c"⟩],
      by simp, rfl, rfl, by decide⟩,
    tenantOfAliases "three" [⟨"a", "b"⟩, ⟨"c", "d"⟩], by simp,
    tenantOfAliases "four" [⟨"a", "b;c=d"⟩], by simp, rfl, rfl, by decide⟩

/-- **Different aliases have different texts unless they run together.** In particular the text
determines aliases whose abbreviations have no equals sign and whose names have no semicolon. The
text of two or more aliases of accepted settings is that of one alias of accepted settings too. -/
theorem aliasMappings_ne {s : Settings} (h : s.validate = .ok ()) {t : Tenant}
    (ht : t ∈ (TenantRegistry.ofSettings s).tenants) :
    (∀ u : Tenant, t.databases ≠ u.databases →
      (¬ RunTogether t.databases u.databases → t.aliasMappings ≠ u.aliasMappings) ∧
      ((∀ a ∈ t.databases, a.IsPlain) → (∀ a ∈ u.databases, a.IsPlain) →
        t.aliasMappings ≠ u.aliasMappings)) ∧
    (2 ≤ t.databases.length →
      ∃ s' : Settings, s'.validate = .ok () ∧ ∃ u ∈ (TenantRegistry.ofSettings s').tenants,
        u.databases.length = 1 ∧ u.aliasMappings = t.aliasMappings) := by
  have hdiffer : ∀ u : Tenant, t.databases ≠ u.databases →
      ¬ RunTogether t.databases u.databases → t.aliasMappings ≠ u.aliasMappings := by
    intro u hne hapart htext
    rcases eq_or_runTogether htext with heq | htogether
    · exact hne heq
    · -- the two tenants have different aliases, of which none has a sign in it
      exact hapart htogether
  refine ⟨fun u hne => ⟨hdiffer u hne, fun hplain hplain' => ?_⟩, fun hlength => ?_⟩
  · exact hdiffer u hne (not_runTogether_of_isPlain hplain hplain')
  · exact exists_sole_of_two_le (Settings.validate_eq_ok_iff.1 h) ht hlength

/-- The text of two aliases is not that of one with an equals sign in its name, but that of one with
a semicolon there. -/
theorem aliasMappings_ne_of_two :
    let t := tenantOfAliases "three" [⟨"a", "b"⟩, ⟨"c", "d"⟩]
    let u := tenantOfAliases "one" [⟨"a", "b=c"⟩]
    ambiguousSettings.validate = .ok () ∧
      t ∈ (TenantRegistry.ofSettings ambiguousSettings).tenants ∧
      t.databases ≠ u.databases ∧ ¬ RunTogether t.databases u.databases ∧
      t.aliasMappings ≠ u.aliasMappings ∧
      ∃ s' : Settings, s'.validate = .ok () ∧ ∃ v ∈ (TenantRegistry.ofSettings s').tenants,
        v.databases.length = 1 ∧ v.aliasMappings = t.aliasMappings := by
  intro t u
  have ht : t ∈ (TenantRegistry.ofSettings ambiguousSettings).tenants := by
    rw [ambiguousSettings_tenants]
    simp [t]
  have hne : t.databases ≠ u.databases := by decide
  have hplain : ∀ a ∈ t.databases, a.IsPlain := by
    intro a ha
    rcases List.mem_pair.1 ha with rfl | rfl <;> exact ⟨by decide, by decide⟩
  have hplain' : ∀ a ∈ u.databases, a.IsPlain := by
    intro a ha
    obtain rfl := List.mem_singleton.1 ha
    exact ⟨by decide, by decide⟩
  have hapart := not_runTogether_of_isPlain hplain hplain'
  obtain ⟨hdiffer, hsole⟩ := aliasMappings_ne ambiguousSettings_validate ht
  exact ⟨ambiguousSettings_validate, ht, hne, hapart, (hdiffer u hne).1 hapart,
    hsole (by decide)⟩

end QueryGateway
