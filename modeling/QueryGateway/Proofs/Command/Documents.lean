import Mathlib.Data.List.Forall2
import Mathlib.Data.Nat.Find
import QueryGateway.Proofs.Command.Compilation
import QueryGateway.Proofs.First
import QueryGateway.Proofs.Text.Blank

/-!
# From parameter elements to parameters

Compiling goes through the elements that declare parameters (`DeclareParameters`) in the order of
the document and stops at the first one that offends: it has no usable name, or a type that no word
stands for, or the key of an element before it (`IsOffending`). An element may offend in several
ways, and then the first of these in this order is reported (`Offence`).

One element comes to an offence or to a parameter (`ParameterDescriptor.compile_cases`), and so does
one round of the loop (`compileParameters_cons_cases`). What carries the rest is that the elements
so far do not offend and that the keys seen are theirs. From this follow both directions: the loop
ends with an error if and only if that is the first offence (`compileParameters_eq_error_iff`), and
otherwise yields one parameter for each element (`forall₂_isFrom_of_compileParameters`).

`compile_isFrom_and_error_iff` puts this together for whole documents.
-/

namespace QueryGateway

open Text Xml

/-! ### Parameter elements -/

/-- **The elements that declare parameters:** those in the first block of parameters below the root.
Any other block is ignored, and without one there are none. -/
inductive DeclareParameters (root : Node) : List Node → Prop where
  | inBlock (block : Node)
      (h : IsFirst (fun child => child.tag? = some "Parameters") root.children block) :
      DeclareParameters root (block.children.filter fun child => child.tag? = some "Parameter")
  | noBlock (h : ∀ child ∈ root.children, child.tag? ≠ some "Parameters") :
      DeclareParameters root []

/-- The elements that a document declares parameters with are those of the first block: a second
block declares nothing, and a document need not have any. -/
theorem declareParameters_iff {root : Node} {es : List Node} :
    DeclareParameters root es ↔ es = parameterElements root := by
  -- the first child with the tag is what the lookup gives, and none is what it gives else
  have hfind : ∀ block, root.child? "Parameters" = some block ↔
      IsFirst (fun child => child.tag? = some "Parameters") root.children block := fun block => by
    rw [Node.child?, find?_eq_some_iff_isFirst]
    simp only [Node.hasTag, decide_eq_true_eq]
  have hnone : root.child? "Parameters" = none ↔
      ∀ child ∈ root.children, child.tag? ≠ some "Parameters" := by
    rw [Node.child?, List.find?_eq_none]
    simp only [Node.hasTag, decide_eq_true_eq, ne_eq]
  constructor
  · rintro (⟨block, hblock⟩ | hblocks)
    · rw [parameterElements, (hfind block).2 hblock]
      rfl
    · rw [parameterElements, hnone.2 hblocks]
  · rintro rfl
    rw [parameterElements]
    split
    next block hblock => exact .inBlock block ((hfind block).1 hblock)
    next hblocks => exact .noBlock (hnone.1 hblocks)

/-- The name that an element declares, without blanks around it. -/
def declaredName (e : Node) : String :=
  trim ((e.attribute? "name").getD "")

/-- The key of the name that an element declares. -/
def declaredKey (e : Node) : String :=
  parameterKey (declaredName e)

/-- **A usable name** consists of more than markers: what is left without them is what statements
refer to. -/
def HasUsableName (e : Node) : Prop :=
  ∃ c ∈ (declaredName e).toList, c ≠ marker

/-- **A known type** is none at all or one that a word stands for. To leave the type out is allowed,
and to name one that does not exist is not. -/
def HasKnownType (e : Node) : Prop :=
  ∀ token, e.attribute? "type" = some token → ∃ type, DeclaredType.ofToken? token = some type

/-- **An element that offends** after others. The third reason alone depends on the elements before
it. -/
def IsOffending (earlier : List Node) (e : Node) : Prop :=
  ¬ HasUsableName e ∨ ¬ HasKnownType e ∨ ∃ e' ∈ earlier, declaredKey e' = declaredKey e

/-- **What is reported of an element** that offends. The reasons are tried in this order, so each
asks that those before it do not apply. -/
inductive Offence (earlier : List Node) (e : Node) : DescriptorError → Prop where
  | nameless (hname : ¬ HasUsableName e) : Offence earlier e (.malformed .namelessParameter)
  | unknownType {token : String} (hname : HasUsableName e)
      (hattribute : e.attribute? "type" = some token)
      (htoken : DeclaredType.ofToken? token = none) :
      Offence earlier e (.unresolvedType (declaredName e) token)
  | repeatedKey (hname : HasUsableName e) (htype : HasKnownType e)
      (hkey : ∃ e' ∈ earlier, declaredKey e' = declaredKey e) :
      Offence earlier e (.malformed (.duplicateParameter (declaredName e)))

section Offences

variable {earlier es : List Node} {e : Node} {err err' : DescriptorError}

theorem not_hasKnownType {token : String} (hattribute : e.attribute? "type" = some token)
    (htoken : DeclaredType.ofToken? token = none) : ¬ HasKnownType e := by
  intro hknown
  obtain ⟨type, htype⟩ := hknown token hattribute
  rw [htoken] at htype
  cases htype

/-- One thing is reported of an element. -/
theorem Offence.unique (h : Offence earlier e err) (h' : Offence earlier e err') : err = err' := by
  -- the three kinds exclude each other: a type is asked for when the name is usable, a key when the
  -- type is known too
  cases h with
  | nameless hname =>
    cases h' with
    | nameless => rfl
    | unknownType hname' => exact absurd hname' hname
    | repeatedKey hname' => exact absurd hname' hname
  | unknownType hname hattribute htoken =>
    cases h' with
    | nameless hname' => exact absurd hname hname'
    | unknownType _ hattribute' =>
      rw [hattribute] at hattribute'
      rw [Option.some.inj hattribute']
    | repeatedKey _ htype => exact absurd htype (not_hasKnownType hattribute htoken)
  | repeatedKey hname htype =>
    cases h' with
    | nameless hname' => exact absurd hname hname'
    | unknownType _ hattribute htoken => exact absurd htype (not_hasKnownType hattribute htoken)
    | repeatedKey => rfl

/-- **Something is reported** of the elements that offend, and of no others. -/
theorem exists_offence_iff : (∃ err, Offence earlier e err) ↔ IsOffending earlier e := by
  constructor
  · rintro ⟨err, hname | ⟨-, hattribute, htoken⟩ | ⟨-, -, hkey⟩⟩
    · exact Or.inl hname
    · exact Or.inr (Or.inl (not_hasKnownType hattribute htoken))
    · exact Or.inr (Or.inr hkey)
  · intro h
    -- the name is looked at first, then the type, and the key last: the first that fails is
    -- reported
    by_cases hname : HasUsableName e
    · by_cases htype : HasKnownType e
      · have hkey := (h.resolve_left (not_not_intro hname)).resolve_left (not_not_intro htype)
        exact ⟨_, .repeatedKey hname htype hkey⟩
      · simp only [HasKnownType, not_forall, not_exists] at htype
        obtain ⟨token, hattribute, hnone⟩ := htype
        exact ⟨_, .unknownType hname hattribute (Option.eq_none_iff_forall_ne_some.2 hnone)⟩
    · exact ⟨_, .nameless hname⟩

/-- What is reported of the element in a place, after those before it. What comes behind it in the
document has no say. -/
def OffendsAt (es : List Node) (i : Nat) (err : DescriptorError) : Prop :=
  ∃ e, es[i]? = some e ∧ Offence (es.take i) e err

/-- **The first offence** in the order of the document. It is the one that compiling reports. -/
def IsFirstOffence (es : List Node) (err : DescriptorError) : Prop :=
  ∃ i, OffendsAt es i err ∧ ∀ j < i, ∀ err', ¬ OffendsAt es j err'

theorem offendsAt_length_iff {rest : List Node} :
    OffendsAt (earlier ++ e :: rest) earlier.length err ↔ Offence earlier e err := by
  rw [OffendsAt, List.getElem?_append_right le_rfl, Nat.sub_self, List.take_left]
  simp

theorem exists_offendsAt_iff {i : Nat} :
    (∃ err, OffendsAt es i err) ↔ ∃ e, es[i]? = some e ∧ IsOffending (es.take i) e := by
  constructor
  · rintro ⟨err, e, he, hoffence⟩
    exact ⟨e, he, exists_offence_iff.1 ⟨err, hoffence⟩⟩
  · rintro ⟨e, he, hoffending⟩
    obtain ⟨err, hoffence⟩ := exists_offence_iff.2 hoffending
    exact ⟨err, e, he, hoffence⟩

/-- An element that offends comes first or after the first one. -/
theorem exists_isFirstOffence_iff :
    (∃ err, IsFirstOffence es err) ↔ ∃ i e, es[i]? = some e ∧ IsOffending (es.take i) e := by
  simp only [← exists_offendsAt_iff]
  constructor
  · rintro ⟨err, i, h, -⟩
    exact ⟨i, err, h⟩
  · intro h
    -- among the places that offend there is a least one
    classical
    obtain ⟨err, herr⟩ := Nat.find_spec h
    exact ⟨err, Nat.find h, herr, fun j hj err' h' => Nat.find_min h hj ⟨err', h'⟩⟩

/-- When nothing is wrong before an element that offends, that is the first offence. -/
theorem isFirstOffence_iff_eq {rest : List Node}
    (hearlier : ∀ j < earlier.length, ∀ err', ¬ OffendsAt (earlier ++ e :: rest) j err')
    (h : Offence earlier e err) : IsFirstOffence (earlier ++ e :: rest) err' ↔ err = err' := by
  constructor
  · rintro ⟨i, hi, hfirst⟩
    -- the first offence is at this element: not before it by the hypothesis, and not behind it as
    -- this one comes earlier
    obtain hlt | rfl | hgt := Nat.lt_trichotomy i earlier.length
    · exact absurd hi (hearlier i hlt err')
    · exact h.unique (offendsAt_length_iff.1 hi)
    · exact absurd (offendsAt_length_iff.2 h) (hfirst _ hgt err)
  · rintro rfl
    exact ⟨earlier.length, offendsAt_length_iff.2 h, hearlier⟩

end Offences

/-! ### One element -/

theorem isEmpty_stripMarkers_iff {e : Node} :
    (stripMarkers (declaredName e)).isEmpty = true ↔ ¬ HasUsableName e := by
  rw [String.isEmpty_iff, stripMarkers, String.ofList_eq_empty_iff, List.dropWhile_eq_nil_iff]
  simp [HasUsableName]

theorem declaredKey_ne_empty {e : Node} (h : HasUsableName e) : declaredKey e ≠ "" := by
  intro hkey
  have hchars := congrArg String.toList hkey
  rw [declaredKey, parameterKey, lower, String.toList_ofList, String.toList_empty] at hchars
  have hlower : lowerChars (stripMarkers (declaredName e)).toList = [] ↔ _ := lowerFrom_eq_nil_iff
  have hempty : (stripMarkers (declaredName e)).isEmpty = true :=
    String.isEmpty_iff.2 (String.toList_eq_nil_iff.1 (hlower.1 hchars))
  exact isEmpty_stripMarkers_iff.1 hempty h

/-- A positive number lies in the range of its rule. -/
theorem positiveAttribute?_bounds {α : Type} {rule : Rule α} {toInt : α → Int} {bound n : Nat}
    {e : Node} {name : String} (hbound : ∀ a, toInt a < bound)
    (h : positiveAttribute? rule toInt e name = some n) : 0 < n ∧ n < bound := by
  -- only a number that converts and is positive comes out, and the type of the number bounds it
  rw [positiveAttribute?] at h
  split at h
  · next a _ =>
    split at h
    · next hpos =>
      obtain rfl := Option.some.inj h
      have hlt := hbound a
      omega
    · cases h
  · cases h

/-- **The parameter of an element:** what binding and building may rely on, and what of it can be
seen in the document. -/
structure ParameterDescriptor.IsFrom (p : ParameterDescriptor) (e : Node) : Prop where
  compile_eq : ParameterDescriptor.compile e = .ok p
  name : ∃ raw, e.attribute? "name" = some raw ∧ p.name = trim raw
  name_trimmed : IsTrimmed p.name.toList
  key_ne : p.key ≠ ""
  /-- Without a type the parameter is a text. -/
  declaredType : e.attribute? "type" = none ∧ p.declaredType = .nVarChar ∨
    ∃ token, e.attribute? "type" = some token ∧
      DeclaredType.ofToken? token = some p.declaredType
  default_target : ∀ v, p.defaultValue = some v → v.target = p.target
  size_bounds : ∀ n, p.size = some n → 0 < n ∧ n < Nat.pow 2 31
  precision_bounds : ∀ n, p.precision = some n → 0 < n ∧ n < Nat.pow 2 8
  scale_bounds : ∀ n, p.scale = some n → 0 < n ∧ n < Nat.pow 2 8

namespace ParameterDescriptor

variable {e : Node} {p : ParameterDescriptor}

/-- What a parameter has from its element. -/
theorem fields_of_compile (h : ParameterDescriptor.compile e = .ok p) :
    HasUsableName e ∧ p.name = declaredName e ∧
      (e.attribute? "type" = none ∧ p.declaredType = defaultDeclaredType ∨
        ∃ token, e.attribute? "type" = some token ∧
          DeclaredType.ofToken? token = some p.declaredType) ∧
      p.size = positiveAttribute? Rule.int Int32.toInt e "size" ∧
      p.precision = positiveAttribute? Rule.tinyInt (fun n => n.toNat) e "precision" ∧
      p.scale = positiveAttribute? Rule.tinyInt (fun n => n.toNat) e "scale" := by
  -- compiling asks for the name, then for the type, and takes the rest as it is
  simp only [ParameterDescriptor.compile] at h
  split at h
  · cases h
  next hnonempty =>
  have hname : HasUsableName e := not_not.1 (mt isEmpty_stripMarkers_iff.2 hnonempty)
  split at h
  · next hattribute =>
    obtain rfl := Except.ok.inj h
    exact ⟨hname, rfl, Or.inl ⟨hattribute, rfl⟩, rfl, rfl, rfl⟩
  · next token hattribute =>
    split at h
    · next type htoken =>
      obtain rfl := Except.ok.inj h
      exact ⟨hname, rfl, Or.inr ⟨token, hattribute, htoken⟩, rfl, rfl, rfl⟩
    · cases h

/-- **What is compiled is the parameter of its element.** -/
theorem isFrom_of_compile (h : ParameterDescriptor.compile e = .ok p) : p.IsFrom e := by
  obtain ⟨⟨c, hc, hmarker⟩, hname, htype, hsize, hprecision, hscale⟩ := fields_of_compile h
  have htiny : ∀ n : UInt8, (n.toNat : Int) < Nat.pow 2 8 := fun n => Int.ofNat_lt.2 n.toNat_lt
  -- the clauses that are not fields of the element: the name is written down and trimmed, its key
  -- is not empty, and the numbers are in range
  refine ⟨h, ?_, ?_, ?_, htype, fun v => compile_default_target h, fun n hn => ?_, fun n hn => ?_,
    fun n hn => ?_⟩
  · -- a name that is not written is empty, and an empty one is not usable
    cases hraw : e.attribute? "name" with
    | none =>
      rw [declaredName, hraw] at hc
      simp [trim, trimChars, skipBlanks] at hc
    | some raw => exact ⟨raw, rfl, by rw [hname, declaredName, hraw]; rfl⟩
  · rw [hname, declaredName]
    exact isTrimmed_trim _
  · -- the key is that of the name without its marker, which is not empty
    rw [key, hname]
    exact declaredKey_ne_empty ⟨c, hc, hmarker⟩
  · exact positiveAttribute?_bounds Int32.toInt_lt (hsize.symm.trans hn)
  · exact positiveAttribute?_bounds htiny (hprecision.symm.trans hn)
  · exact positiveAttribute?_bounds htiny (hscale.symm.trans hn)

theorem IsFrom.key_eq (h : p.IsFrom e) : p.key = declaredKey e := by
  obtain ⟨-, hname, -⟩ := fields_of_compile h.compile_eq
  rw [key, hname, declaredKey]

/-- **One element** offends whatever comes before it, or it has its parameter. -/
theorem compile_cases (e : Node) :
    (∃ err, ParameterDescriptor.compile e = .error err ∧ ∀ earlier, Offence earlier e err) ∨
      ∃ p, ParameterDescriptor.compile e = .ok p ∧ HasUsableName e ∧ HasKnownType e := by
  -- the name is looked at before the type, and nothing else can go wrong
  by_cases hname : HasUsableName e
  · have hnonempty := mt isEmpty_stripMarkers_iff.1 (not_not_intro hname)
    rw [declaredName] at hnonempty
    cases hattribute : e.attribute? "type" with
    | none =>
      have hcompile : ∃ p, ParameterDescriptor.compile e = .ok p := by
        simp only [ParameterDescriptor.compile, if_neg hnonempty, hattribute]
        exact ⟨_, rfl⟩
      have hknown : HasKnownType e := fun token htoken => by
        rw [hattribute] at htoken
        cases htoken
      exact Or.inr (hcompile.imp fun p hp => ⟨hp, hname, hknown⟩)
    | some token =>
      cases htoken : DeclaredType.ofToken? token with
      | none =>
        refine Or.inl ⟨_, ?_, fun earlier => .unknownType hname hattribute htoken⟩
        simp only [ParameterDescriptor.compile, if_neg hnonempty, hattribute, htoken]
        rfl
      | some type =>
        have hcompile : ∃ p, ParameterDescriptor.compile e = .ok p := by
          simp only [ParameterDescriptor.compile, if_neg hnonempty, hattribute, htoken]
          exact ⟨_, rfl⟩
        have hknown : HasKnownType e := fun token' htoken' => by
          rw [hattribute] at htoken'
          exact ⟨type, Option.some.inj htoken' ▸ htoken⟩
        exact Or.inr (hcompile.imp fun p hp => ⟨hp, hname, hknown⟩)
  · have hempty := isEmpty_stripMarkers_iff.2 hname
    -- the name fails, whatever else is written
    rw [declaredName] at hempty
    simp only [ParameterDescriptor.compile, if_pos hempty]
    exact Or.inl ⟨_, rfl, fun earlier => .nameless hname⟩

end ParameterDescriptor

/-! ### The loop over the elements -/

section Loop

variable {earlier rest es : List Node} {e : Node} {seen : List String} {err : DescriptorError}

/-- **One round of the loop,** when the keys seen are those of the elements so far. -/
theorem compileParameters_cons_cases
    (hseen : ∀ key, key ∈ seen ↔ ∃ e' ∈ earlier, declaredKey e' = key) :
    (∃ err, Offence earlier e err ∧ compileParameters seen (e :: rest) = .error err) ∨
      ∃ p : ParameterDescriptor, p.IsFrom e ∧ ¬ IsOffending earlier e ∧
        compileParameters seen (e :: rest) =
          (compileParameters (p.key :: seen) rest).map (p :: ·) := by
  rw [compileParameters]
  -- what the element is alone, and then what its key is among those seen
  rcases ParameterDescriptor.compile_cases e with ⟨err, herr, hoffence⟩ | ⟨p, hp, hname, htype⟩
  · rw [herr]
    exact Or.inl ⟨err, hoffence earlier, rfl⟩
  · have hfrom := ParameterDescriptor.isFrom_of_compile hp
    have hkey : p.key ∈ seen ↔ ∃ e' ∈ earlier, declaredKey e' = declaredKey e := by
      rw [hseen, hfrom.key_eq]
    rw [hp]
    by_cases hold : p.key ∈ seen
    · obtain ⟨-, hpname, -⟩ := ParameterDescriptor.fields_of_compile hp
      refine Or.inl ⟨_, .repeatedKey hname htype (hkey.1 hold), ?_⟩
      change (if p.key ∈ seen then _ else _) = _
      rw [if_pos hold, hpname]
      rfl
    · -- none of the three: it joins the list
      have hok : ¬ IsOffending earlier e := by
        rintro (hnot | hnot | hnot)
        · exact hnot hname
        · exact hnot htype
        · exact hold (hkey.2 hnot)
      refine Or.inr ⟨p, hfrom, hok, ?_⟩
      change (if p.key ∈ seen then _ else _) = _
      rw [if_neg hold]
      cases compileParameters (p.key :: seen) rest <;> rfl

/-- **The loop stops at the first offence,** if there is none before it starts. -/
theorem compileParameters_eq_error_iff
    (hseen : ∀ key, key ∈ seen ↔ ∃ e' ∈ earlier, declaredKey e' = key)
    (hearlier : ∀ i < earlier.length, ∀ err', ¬ OffendsAt (earlier ++ es) i err') :
    compileParameters seen es = .error err ↔ IsFirstOffence (earlier ++ es) err := by
  induction es generalizing earlier seen with
  | nil =>
    constructor
    · intro h
      -- nothing is left, so an offence would have to be before the start
      cases h
    · rintro ⟨i, ⟨e, he, hoffence⟩, -⟩
      have hi : i < earlier.length := by
        simpa using (List.getElem?_eq_some_iff.1 he).1
      exact absurd ⟨e, he, hoffence⟩ (hearlier i hi err)
  | cons e rest ih =>
    rcases @compileParameters_cons_cases earlier rest e seen hseen with
      ⟨err', hoffence, heq⟩ | ⟨p, hfrom, hok, heq⟩
    · -- the loop stops here, with the offence that was found
      rw [heq, isFirstOffence_iff_eq hearlier hoffence, Except.error.injEq]
    · have hseen' : ∀ key, key ∈ p.key :: seen ↔
          ∃ e' ∈ earlier ++ [e], declaredKey e' = key := by
        intro key
        rw [List.mem_cons, hseen, hfrom.key_eq]
        simp [or_comm, or_and_right, exists_or, eq_comm]
      -- the element joins those that have been read, and it does not offend either
      have hsplit : earlier ++ e :: rest = earlier ++ [e] ++ rest := by simp
      have hearlier' : ∀ i < (earlier ++ [e]).length, ∀ err',
          ¬ OffendsAt (earlier ++ [e] ++ rest) i err' := by
        intro i hi err'
        rw [← hsplit]
        rw [List.length_append, List.length_singleton] at hi
        obtain hlt | rfl := Nat.lt_succ_iff_lt_or_eq.1 hi
        · exact hearlier i hlt err'
        · rw [offendsAt_length_iff]
          exact fun hoffence => hok (exists_offence_iff.1 ⟨err', hoffence⟩)
      rw [heq, hsplit, ← ih hseen' hearlier']
      -- the result of the rest decides, and the head adds no error
      cases compileParameters (p.key :: seen) rest with
      | error err' => simp [Except.map]
      | ok ps => simp [Except.map]

/-- **One parameter for each element,** in the same order. -/
theorem forall₂_isFrom_of_compileParameters {ps : List ParameterDescriptor}
    (h : compileParameters seen es = .ok ps) : List.Forall₂ ParameterDescriptor.IsFrom ps es := by
  induction es generalizing seen ps with
  | nil =>
    cases h
    exact .nil
  | cons e rest ih =>
    obtain ⟨p, tail, hp, -, htail, rfl⟩ := compileParameters_cons h
    exact .cons (ParameterDescriptor.isFrom_of_compile hp) (ih htail)

end Loop

/-! ### Documents -/

/-- **The command of a root element:** what binding, building and caching may rely on, with a
parameter for each element that declares one. -/
structure CommandDescriptor.IsFrom (d : CommandDescriptor) (root : Node) : Prop where
  parameters : ∃ es, DeclareParameters root es ∧
    List.Forall₂ ParameterDescriptor.IsFrom d.parameters es
  keys_nodup : (d.parameters.map (·.key)).Nodup
  /-- A name leads to the parameter of its key. -/
  position?_eq : ∀ i p, d.parameters[i]? = some p → ∀ name, parameterKey name = p.key →
    d.position? name = some i
  timeout_bounds : 1 ≤ d.timeoutSeconds ∧ d.timeoutSeconds ≤ Nat.pow 2 31 - 1
  text_trimmed : d.kind ≠ .text → IsTrimmed d.text.toList

theorem isTrimmed_commandText {root : Node} {kind : CommandKind} (h : kind ≠ .text) :
    IsTrimmed (commandText root kind).toList := by
  rw [commandText]
  · exact isTrimmed_trim _
  · exact h

/-- A time out is at least a second, and one more than the greatest 32 bit number cannot be written:
the declared value is positive, and the default stands for all that is not. -/
theorem timeoutSeconds_bounds (root : Node) :
    1 ≤ (positiveAttribute? Rule.int Int32.toInt root "timeout").getD defaultTimeoutSeconds ∧
      (positiveAttribute? Rule.int Int32.toInt root "timeout").getD defaultTimeoutSeconds ≤
        Nat.pow 2 31 - 1 := by
  cases h : positiveAttribute? Rule.int Int32.toInt root "timeout" with
  -- not declared, or no positive number: the default, which is in range
  | none => decide
  | some n =>
    obtain ⟨hpos, hlt⟩ := positiveAttribute?_bounds Int32.toInt_lt h
    rw [Option.getD_some]
    exact ⟨hpos, Nat.le_sub_one_of_lt hlt⟩

/-- **A compiled root is described by its document:** the parameters come one by one from the
elements that declare them, and the rest is checked when the root is read. -/
theorem CommandDescriptor.isFrom_of_compileRoot {root : Node} {d : CommandDescriptor}
    (h : CommandDescriptor.compileRoot root = .ok d) : d.IsFrom root := by
  have hwell := isWellFormed_of_compileRoot h
  simp only [CommandDescriptor.compileRoot] at h
  split at h
  · -- a root that is not accepted gives nothing, and one whose parameters fail neither
    cases h
  obtain ⟨parameters, hps, h⟩ := except_bind_eq_ok h
  obtain rfl := Except.ok.inj h
  have hparameters := forall₂_isFrom_of_compileParameters hps
  refine ⟨⟨_, declareParameters_iff.2 rfl, hparameters⟩, hwell.keys_nodup,
    fun i p hp name hname => ?_, timeoutSeconds_bounds root, isTrimmed_commandText⟩
  exact (position?_eq_some_iff hwell).2 ⟨p, hp, hname.symm⟩

/-- Whatever compiles has a tag that is accepted. -/
theorem CommandDescriptor.exists_tag_of_compileRoot {root : Node} {d : CommandDescriptor}
    (h : CommandDescriptor.compileRoot root = .ok d) :
    ∃ tag, root.tag? = some tag ∧ tag ∈ rootTags := by
  simp only [CommandDescriptor.compileRoot] at h
  split at h
  · cases h
  next haccepted =>
  cases htag : root.tag? with
  -- without a tag the root is compared with the empty text, which no accepted tag is
  | none =>
    rw [htag] at haccepted
    exact absurd (by decide) haccepted
  | some tag =>
    rw [htag] at haccepted
    exact ⟨tag, rfl, not_not.1 haccepted⟩

/-- With an accepted tag, the parameters alone decide. -/
theorem CommandDescriptor.compileRoot_eq_error_iff {root : Node} {tag : String}
    {err : DescriptorError} (htag : root.tag? = some tag) (haccepted : tag ∈ rootTags) :
    CommandDescriptor.compileRoot root = .error err ↔
      IsFirstOffence (parameterElements root) err := by
  -- the loop starts with nothing seen and nothing before it
  have hloop : compileParameters [] (parameterElements root) = .error err ↔ _ :=
    @compileParameters_eq_error_iff [] _ [] err (by simp) (by simp)
  rw [List.nil_append] at hloop
  rw [← hloop, compileRoot, htag, Option.getD_some, if_neg (not_not_intro haccepted)]
  cases compileParameters [] (parameterElements root) with
  | error err' => exact ⟨fun h => congrArg _ (Except.error.inj h),
      fun h => congrArg _ (Except.error.inj h)⟩
  | ok ps =>
    constructor
    · intro h
      cases h
    · intro h
      cases h

/-- **What compiling a document comes to.** A command that comes out has the parameters that the
document declares, one for each of its elements, and what binding and building rely on. When the
root is accepted, nothing comes out if and only if an element offends, and the first one is
reported. -/
theorem compile_isFrom_and_error_iff (source : String) :
    (∀ d, CommandDescriptor.compile source = .ok d →
      ∃ root tag, Xml.parse? source = some root ∧ root.tag? = some tag ∧ tag ∈ rootTags ∧
        d.IsFrom root) ∧
    ∀ root tag es, Xml.parse? source = some root → root.tag? = some tag → tag ∈ rootTags →
      DeclareParameters root es →
      ((∃ err, CommandDescriptor.compile source = .error err) ↔
        ∃ i e, es[i]? = some e ∧ IsOffending (es.take i) e) ∧
      ∀ err, CommandDescriptor.compile source = .error err ↔ IsFirstOffence es err := by
  refine ⟨fun d hd => ?_, fun root tag es hroot htag haccepted hes => ?_⟩
  · -- what comes out has come from a document that parses and a root that is accepted
    rw [CommandDescriptor.compile] at hd
    cases hroot : Xml.parse? source with
    | none =>
      rw [hroot] at hd
      cases hd
    | some root =>
      rw [hroot] at hd
      obtain ⟨tag, htag, haccepted⟩ := CommandDescriptor.exists_tag_of_compileRoot hd
      exact ⟨root, tag, rfl, htag, haccepted, CommandDescriptor.isFrom_of_compileRoot hd⟩
  · -- with the root given, the parameters are all that can go wrong
    have hcompile : CommandDescriptor.compile source = CommandDescriptor.compileRoot root := by
      rw [CommandDescriptor.compile, hroot]
    have hfirst : ∀ err, CommandDescriptor.compile source = .error err ↔
        IsFirstOffence es err := fun err => by
      rw [hcompile, declareParameters_iff.1 hes,
        CommandDescriptor.compileRoot_eq_error_iff htag haccepted]
    refine ⟨?_, hfirst⟩
    simp only [hfirst, exists_isFirstOffence_iff]

/-- A document of two parameters. -/
def declaredDocument : String :=
  "<Command timeout='-1'><Parameters><Parameter name=' @id ' type='Int' value='7'/>" ++
    "<Parameter name='q' size='0'/></Parameters></Command>"

/-- What the document describes. -/
def declaredDescriptor : CommandDescriptor where
  timeoutSeconds := 30
  kind := .text
  text := ""
  parameters :=
    [⟨"@id", .int, .input, true, none, none, none, some (.int 7)⟩,
      ⟨"q", .nVarChar, .input, true, none, none, none, none⟩]

/-- A document whose second parameter has an unknown type and the key of the first one. The third
has no name. -/
def strayDocument : String :=
  "<Command><Parameters><Parameter name='@id'/><Parameter name='ID' type='jsonb'/><Parameter/>" ++
    "</Parameters></Command>"

/-- Two parameters come out of one document. Of the other the unknown type is reported. -/
theorem compile_isFrom_and_error_iff_declared :
    (CommandDescriptor.compile declaredDocument = .ok declaredDescriptor ∧
      ∃ root, Xml.parse? declaredDocument = some root ∧ declaredDescriptor.IsFrom root) ∧
    ∃ root es, Xml.parse? strayDocument = some root ∧ DeclareParameters root es ∧
      CommandDescriptor.compile strayDocument = .error (.unresolvedType "ID" "jsonb") ∧
      IsFirstOffence es (.unresolvedType "ID" "jsonb") := by
  -- the documents are read by evaluation; what they mean comes from the theorem
  have hdeclared : CommandDescriptor.compile declaredDocument = .ok declaredDescriptor :=
    except_eq_ok_of_toOption (by decide +kernel)
  obtain ⟨root, -, hroot, -, -, hfrom⟩ :=
    (compile_isFrom_and_error_iff declaredDocument).1 _ hdeclared
  have htag : (Xml.parse? strayDocument).bind Node.tag? = some "Command" := by decide +kernel
  obtain ⟨root', hroot', htag'⟩ := Option.bind_eq_some_iff.1 htag
  have hes : DeclareParameters root' (parameterElements root') := declareParameters_iff.2 rfl
  obtain ⟨-, hfirst⟩ :=
    (compile_isFrom_and_error_iff strayDocument).2 root' "Command" _ hroot' htag' (by decide) hes
  have herror :
      CommandDescriptor.compile strayDocument = .error (.unresolvedType "ID" "jsonb") := by
    decide +kernel
  exact ⟨⟨hdeclared, root, hroot, hfrom⟩, root', _, hroot', hes, herror, (hfirst _).1 herror⟩

end QueryGateway
