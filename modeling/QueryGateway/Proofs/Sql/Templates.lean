import QueryGateway.Proofs.Sql.References
import QueryGateway.Proofs.Sql.Refusals

/-!
# Statements that fill a template

The statement of a table or a procedure is a fixed text around the name of the object and, for a
procedure, a list of arguments (`object_statement_is_template`). What the descriptor puts into it is
names: the name of the object is the text of the command as it is, and each argument is the name of
a parameter that travels, without its markers. In these, characters outside quotes are characters of
names (`isNameChar`), so nothing that separates, quotes or begins a comment gets in.

No two arguments have one name apart from case, although nothing compares them when the statement is
built. Compiling has compared the keys of the parameters, and as the names are ASCII, a key is the
name with its letters in lower case (`lower_of_isArgument`).
-/

namespace QueryGateway

open Text

/-! ### Characters of names -/

namespace Text

theorem lowerChar_of_ascii {c : Char} (h : c.toNat < 0x80) : lowerChar c = asciiLowerChar c := by
  rw [lowerChar, if_pos h]
  rfl

/-- Both foldings of case agree on ASCII. -/
theorem lowerFrom_of_ascii {before cs : List Char} (h : ∀ c ∈ cs, c.toNat < 0x80) :
    lowerFrom before cs = cs.map asciiLowerChar := by
  induction cs generalizing before with
  | nil => rfl
  | cons c cs ih =>
    have hc : c.toNat < 0x80 := h c List.mem_cons_self
    have hat : lowerAt before c cs = [asciiLowerChar c] := by
      rw [lowerAt, if_neg, if_neg, lowerChar_of_ascii hc]
      all_goals
        rintro rfl
        exact absurd hc (by decide)
    rw [lowerFrom, hat, ih fun d hd => h d (List.mem_cons_of_mem c hd)]
    rfl

end Text

namespace Sql

/-- Characters of names are ASCII, from the dollar to the small letter z. -/
theorem bounds_of_isNameChar {c : Char} (h : isNameChar c = true) :
    0x24 ≤ c.toNat ∧ c.toNat ≤ 0x7A := by
  rw [isNameChar, Bool.or_eq_true, Bool.or_eq_true, decide_eq_true_eq, decide_eq_true_eq] at h
  rcases h with (h | rfl) | rfl
  · -- the alphanumeric ones are of three ranges, each within the bounds
    have hkinds : (c.isUpper = true ∨ c.isLower = true) ∨ c.isDigit = true :=
      (Bool.or_eq_true_iff.1 h).imp_left Bool.or_eq_true_iff.1
    rcases hkinds with (h | h) | h
    · obtain ⟨hlo, hhi⟩ : 'A'.val ≤ c.val ∧ c.val ≤ 'Z'.val := of_decide_eq_true h
      exact ⟨Nat.le_trans (by decide) hlo, Nat.le_trans hhi (by decide)⟩
    all_goals
      obtain ⟨hlo, hhi⟩ := Bool.and_eq_true_iff.1 h
      exact ⟨Nat.le_trans (by decide) (of_decide_eq_true hlo),
        Nat.le_trans (of_decide_eq_true hhi) (by decide)⟩
  · decide
  · decide

/-- **Whether a character neither separates nor quotes** nor can begin a comment. Written into a
statement, it leaves what stands around it what it was. -/
def IsInert (c : Char) : Prop :=
  isBlank c = false ∧ c ∉ [';', '\x27', '"', '(', ')', '-', '/']

theorem isInert_of_isNameChar {c : Char} (h : isNameChar c = true) : IsInert c := by
  obtain ⟨hlo, hhi⟩ := bounds_of_isNameChar h
  refine ⟨?_, fun hmem => ?_⟩
  · refine Bool.of_not_eq_true fun hblank => ?_
    simp only [isBlank, Bool.or_eq_true, Bool.and_eq_true, decide_eq_true_eq, beq_iff_eq] at hblank
    omega
  · simp only [List.mem_cons, List.not_mem_nil, or_false] at hmem
    rcases hmem with rfl | rfl | rfl | rfl | rfl | rfl | rfl <;> exact absurd h (by decide)

theorem IsArgument.isNameChar {cs : List Char} (h : IsArgument cs) :
    ∀ c ∈ cs, isNameChar c = true := by
  obtain ⟨c, cs, hc, hcs⟩ := h
  refine List.forall_mem_cons.2 ⟨isNameChar_of_isNameStart hc, fun d hd => ?_⟩
  rw [Sql.isNameChar, hcs d hd]
  rfl

/-- Outside quotes a component consists of characters of names. -/
theorem IsComponent.isNameChar {part : List Char} (h : IsComponent part)
    (hplain : part.head? ≠ some '"') : ∀ c ∈ part, isNameChar c = true := by
  cases h with
  | plain c cs hc hcs => exact List.forall_mem_cons.2 ⟨isNameChar_of_isNameStart hc, hcs⟩
  | quoted body h => exact absurd rfl hplain

/-- A name of an object, taken apart. -/
theorem IsObjectName.exists_parts {cs : List Char} (h : IsObjectName cs) :
    ∃ parts : List (List Char), 1 ≤ parts.length ∧ parts.length ≤ 3 ∧
      cs = ['.'].intercalate parts ∧ ∀ part ∈ parts, IsComponent part ∧
        (part.head? ≠ some '"' → ∀ c ∈ part, IsInert c) := by
  obtain ⟨parts, hne, hlen, hparts, rfl⟩ := h
  refine ⟨parts, List.length_pos_iff.2 hne, hlen, rfl, fun part hpart => ⟨hparts part hpart, ?_⟩⟩
  exact fun hplain c hc => isInert_of_isNameChar ((hparts part hpart).isNameChar hplain c hc)

/-! ### Names of arguments -/

/-- The lower-case form of a name of an argument. -/
theorem lower_of_isArgument {name : String} (h : IsArgument name.toList) :
    lower name = asciiLower name := by
  have hascii : ∀ c ∈ name.toList, c.toNat < 0x80 := by
    intro c hc
    have hbounds := bounds_of_isNameChar (h.isNameChar c hc)
    omega
  rw [lower, lowerChars, lowerFrom_of_ascii hascii]
  rfl

/-- **Names that are alike apart from case belong to parameters of one key.** -/
theorem key_eq_of_equalAsciiCase {p q : ParameterDescriptor}
    (hp : IsArgument (stripMarkers p.name).toList) (hq : IsArgument (stripMarkers q.name).toList)
    (h : equalAsciiCase (stripMarkers p.name) (stripMarkers q.name) = true) : p.key = q.key := by
  rw [ParameterDescriptor.key, ParameterDescriptor.key, parameterKey, parameterKey,
    lower_of_isArgument hp, lower_of_isArgument hq]
  exact congrArg String.ofList (beq_iff_eq.1 h)

/-! ### Lists of arguments -/

theorem argumentTexts_eq (n : Nat) (names : List String) :
    argumentTexts n names = names.mapIdx fun i name => name ++ " => $" ++ toString (n + i) := by
  induction names generalizing n with
  | nil => rfl
  | cons name names ih =>
    have hplaceholder : name ++ " => " ++ String.ofList (placeholder n) =
        name ++ " => $" ++ toString n := by
      rw [placeholder, String.ofList_cons, String.append_assoc, String.append_assoc]
      rfl
    rw [argumentTexts, ih, List.mapIdx_cons, hplaceholder]
    simp only [Nat.add_assoc, Nat.add_comm 1, Nat.add_zero]

/-- **The arguments are those of the parameters that travel,** in their order, with what travels. -/
theorem argumentsOf_slotOf {slots : List (ParameterDescriptor × BoundValue)}
    (hsup : ∀ slot ∈ slots, IsSupplied slot) :
    let bound := slots.filter (·.1.direction.isBound)
    let args := argumentsOf (slots.map fun slot => (slot.1, slotOf slot))
    args.map (·.1) = bound.map (fun slot => stripMarkers slot.1.name) ∧
      List.Forall₂ (fun slot v => BindValue.ofBound? slot.1.target slot.2 = some v) bound
        (args.map (·.2)) := by
  -- along the slots, in declared order
  induction slots with
  | nil => exact ⟨rfl, .nil⟩
  | cons slot rest ih =>
    obtain ⟨hnames, hvalues⟩ := ih fun s hs => hsup s (List.mem_cons_of_mem slot hs)
    intro bound args
    by_cases hb : slot.1.direction.isBound = true
    · -- it travels, and being supplied it holds something
      obtain ⟨v, hv⟩ : ∃ v, BindValue.ofBound? slot.1.target slot.2 = some v :=
        Option.ne_none_iff_exists'.1 fun hnone =>
          hsup slot List.mem_cons_self hb (BindValue.ofBound?_eq_none_iff.1 hnone)
      have hargs : args = (stripMarkers slot.1.name, v) ::
          argumentsOf (rest.map fun slot => (slot.1, slotOf slot)) := by
        change argumentsOf ((slot.1, slotOf slot) :: _) = _
        rw [argumentsOf_cons, slotOf, if_pos hb, hv]
        rfl
      have hbound : bound = slot :: rest.filter (·.1.direction.isBound) :=
        List.filter_cons_of_pos hb
      rw [hargs, hbound, List.map_cons, List.map_cons, List.map_cons, hnames]
      exact ⟨rfl, .cons hv hvalues⟩
    · -- it does not travel, and nothing is added on either side
      have hargs : args = argumentsOf (rest.map fun slot => (slot.1, slotOf slot)) := by
        change argumentsOf ((slot.1, slotOf slot) :: _) = _
        rw [argumentsOf_cons, slotOf, if_neg hb]
        rfl
      have hbound : bound = rest.filter (·.1.direction.isBound) := List.filter_cons_of_neg hb
      rw [hargs, hbound]
      exact ⟨hnames, hvalues⟩

/-! ### Statements -/

variable {d : CommandDescriptor} {slots : List (Option BindValue)} {s : Statement}

theorem objectName_eq_ok_iff {text name : String} :
    objectName text = .ok name ↔ IsObjectName text.toList ∧ name = text := by
  by_cases h : IsObjectName text.toList
  · rw [objectName_of_isObjectName h]
    simp [h, eq_comm]
  · rw [objectName_of_not_isObjectName h]
    simp [h]

theorem readTable_eq_ok (h : readTable d = .ok s) :
    IsObjectName d.text.toList ∧ s = ⟨"SELECT * FROM " ++ d.text, []⟩ := by
  obtain ⟨name, hname, h⟩ := except_bind_eq_ok h
  obtain ⟨hobject, rfl⟩ := objectName_eq_ok_iff.1 hname
  exact ⟨hobject, (Except.ok.inj h).symm⟩

/-- A call that succeeds has a name, arguments that can be named, and the text of the template with
them. -/
theorem callProcedure_eq_ok (h : callProcedure d slots = .ok s) :
    IsObjectName d.text.toList ∧ (∀ slot ∈ d.parameters.zip slots, ¬ IsMisnamed slot) ∧
      let args := argumentsOf (d.parameters.zip slots)
      s = ⟨"SELECT * FROM " ++ d.text ++ "(" ++ join ", " (argumentTexts 1 (args.map (·.1))) ++ ")",
        args.map (·.2)⟩ := by
  -- the name is checked first, then the arguments
  obtain ⟨name, hname, h⟩ := except_bind_eq_ok h
  obtain ⟨hobject, rfl⟩ := objectName_eq_ok_iff.1 hname
  obtain ⟨args, hargs, h⟩ := except_bind_eq_ok h
  rcases arguments_eq (d.parameters.zip slots) with ⟨slot, -, herror⟩ | ⟨hall, hok⟩
  · rw [herror] at hargs
    cases hargs
  · rw [hok] at hargs
    obtain rfl := Except.ok.inj hargs
    exact ⟨hobject, hall, (Except.ok.inj h).symm⟩

theorem except_mapError_eq_ok {ε ε' α : Type} {x : Except ε α} {f : ε → ε'} {a : α}
    (h : x.mapError f = .ok a) : x = .ok a := by
  cases x with
  | error e => cases h
  | ok b => exact congrArg Except.ok (Except.ok.inj h)

/-- What is not misnamed although it travels is an argument. -/
theorem isArgument_of_not_isMisnamed {slot : ParameterDescriptor × BoundValue}
    (hsup : IsSupplied slot) (hb : slot.1.direction.isBound = true)
    (h : ¬ IsMisnamed (slot.1, slotOf slot)) : IsArgument (stripMarkers slot.1.name).toList :=
  Classical.not_not.1 fun hname => h ⟨(slotOf_isSome hsup).trans hb, hname⟩

end Sql

open Sql

/-- **What travels for a command:** the parameters that do, with what they hold, in declared
order. -/
def BoundCommand.travelling (b : BoundCommand) : List (ParameterDescriptor × BoundValue) :=
  b.slots.filter (·.1.direction.isBound)

/-- The names of the arguments of a procedure. -/
def BoundCommand.argumentNames (b : BoundCommand) : List String :=
  b.travelling.map fun slot => stripMarkers slot.1.name

/-- **What a call of a procedure is:** its text, which of the parameters are in it, what is sent for
them, and what their names can be. -/
structure Sql.IsCall (b : BoundCommand) (s : Statement) : Prop where
  /-- The arguments stand behind the name, each with its number, counted from one. -/
  sql : s.sql = "SELECT * FROM " ++ b.descriptor.text ++ "(" ++
    join ", " (b.argumentNames.mapIdx fun i name => name ++ " => $" ++ toString (i + 1)) ++ ")"
  /-- There is one for each parameter that travels, in declared order. -/
  parameters : b.travelling.map (·.1) = b.descriptor.parameters.filter (·.direction.isBound)
  /-- The statement carries what these parameters hold. -/
  params : List.Forall₂ (fun slot v => BindValue.ofBound? slot.1.target slot.2 = some v)
    b.travelling s.params
  /-- Each has a name of an argument. -/
  isArgument : ∀ name ∈ b.argumentNames, IsArgument name.toList ∧ ∀ c ∈ name.toList, IsInert c
  /-- No two have one name, apart from case. -/
  distinct : b.argumentNames.Pairwise fun a b => equalAsciiCase a b = false

namespace CommandDescriptor

variable {d : CommandDescriptor}

/-- What travels are the parameters that do. -/
theorem bind_travelling (hd : d.IsWellFormed) (vs : ParameterValues) :
    (d.bind vs).travelling.map (·.1) = d.parameters.filter (·.direction.isBound) := by
  rw [BoundCommand.travelling, bind_slots hd, List.filter_map, List.map_map]
  exact List.map_id _

/-- Arguments are distinct, apart from case, since keys are. -/
theorem pairwise_argumentNames (hd : d.IsWellFormed) {vs : ParameterValues}
    (h : ∀ slot ∈ (d.bind vs).travelling, IsArgument (stripMarkers slot.1.name).toList) :
    (d.bind vs).argumentNames.Pairwise fun a b => equalAsciiCase a b = false := by
  have hkeys : ((d.bind vs).travelling.map (·.1.key)).Nodup := by
    have hsub : List.Sublist ((d.bind vs).travelling.map (·.1)) d.parameters := by
      rw [bind_travelling hd]
      exact List.filter_sublist
    have hnodup := hd.keys_nodup.sublist (hsub.map (·.key))
    rwa [List.map_map] at hnodup
  rw [BoundCommand.argumentNames, List.pairwise_map]
  refine List.Pairwise.imp_of_mem ?_ (List.pairwise_map.1 hkeys)
  intro p q hp hq hne
  exact Bool.of_not_eq_true fun heq => hne (key_eq_of_equalAsciiCase (h p hp) (h q hq) heq)

/-- **A procedure is called as the template says.** -/
theorem bind_isCall (hd : d.IsWellFormed) {vs : ParameterValues} {s : Statement}
    (hsup : ∀ slot ∈ (d.bind vs).slots, IsSupplied slot)
    (h : callProcedure d ((d.bind vs).slots.map slotOf) = .ok s) : IsCall (d.bind vs) s := by
  obtain ⟨-, hnamed, rfl⟩ := callProcedure_eq_ok h
  -- the parameters with what travels for them, as slots
  have hzip : d.parameters.zip ((d.bind vs).slots.map slotOf) =
      (d.bind vs).slots.map fun slot => (slot.1, slotOf slot) := by
    rw [bind_slots hd, zip_slotOf, List.map_map]
    rfl
  rw [hzip] at hnamed ⊢
  -- an argument that travels and passed has the form of one
  have harguments : ∀ slot ∈ (d.bind vs).travelling,
      IsArgument (stripMarkers slot.1.name).toList := by
    intro slot hslot
    obtain ⟨hmem, hb⟩ := List.mem_filter.1 hslot
    exact isArgument_of_not_isMisnamed (hsup slot hmem) hb (hnamed _ (List.mem_map_of_mem hmem))
  obtain ⟨hnames, hvalues⟩ := argumentsOf_slotOf hsup
  refine ⟨?_, bind_travelling hd vs, hvalues, List.forall_mem_map.2 fun slot hslot => ?_,
    pairwise_argumentNames hd harguments⟩
  · -- the texts number the names from one, in the order in which they travel
    rw [hnames, argumentTexts_eq]
    simp only [Nat.add_comm 1]
    rfl
  · have hname := harguments slot hslot
    exact ⟨hname, fun c hc => isInert_of_isNameChar (hname.isNameChar c hc)⟩

end CommandDescriptor

/-- **A statement of a table or a procedure is its template,** filled with the name of the object
and, for a procedure, the names and numbers of the parameters that travel. The recogniser of names
takes exactly the names of the grammar. In those and in the names of arguments nothing outside
quotes separates, quotes or begins a comment. -/
theorem object_statement_is_template {source : String} {d : CommandDescriptor}
    (h : CommandDescriptor.compile source = .ok d) (hkind : d.kind ≠ .text) (vs : ParameterValues) :
    (∀ text, objectName text = .ok text ↔ IsObjectName text.toList) ∧
    ∀ s, (d.bind vs).statement = .ok s →
      (∃ parts : List (List Char), 1 ≤ parts.length ∧ parts.length ≤ 3 ∧
        d.text.toList = ['.'].intercalate parts ∧ ∀ part ∈ parts, IsComponent part ∧
          (part.head? ≠ some '"' → ∀ c ∈ part, IsInert c)) ∧
      (d.kind = .tableDirect → s = ⟨"SELECT * FROM " ++ d.text, []⟩) ∧
      (d.kind = .storedProcedure → IsCall (d.bind vs) s) := by
  -- the name passes exactly if it is one, and what passes is kept as it is
  refine ⟨fun text => by simp [objectName_eq_ok_iff], fun s hs => ?_⟩
  -- the slots are there, and they are those of the parameters
  obtain ⟨slots, hslots, hs⟩ := BoundCommand.statement_eq_ok hs
  obtain rfl := eq_map_slotOf_of_bindSlots hslots
  change statementOfSlots d _ = .ok s at hs
  unfold statementOfSlots at hs
  -- the kind says which of the two templates is filled
  cases hk : d.kind with
  | text => exact absurd hk hkind
  | tableDirect =>
    rw [hk] at hs
    obtain ⟨hobject, rfl⟩ := readTable_eq_ok (except_mapError_eq_ok hs)
    exact ⟨hobject.exists_parts, fun _ => rfl, fun h => (by cases h)⟩
  | storedProcedure =>
    rw [hk] at hs
    have hcall := except_mapError_eq_ok hs
    obtain ⟨hobject, -⟩ := callProcedure_eq_ok hcall
    refine ⟨hobject.exists_parts, fun h => (by cases h), fun _ => ?_⟩
    exact CommandDescriptor.bind_isCall (isWellFormed_of_compile h) (isSupplied_of_bindSlots hslots)
      hcall

/-! ### A report -/

/-- A document of a procedure with quotes in its name. -/
def reportDocument : String :=
  "<Command type='StoredProcedure'><CommandText>a$.\"b\"\";.\"</CommandText><Parameters>" ++
    "<Parameter name='@Id' type='Int'/><Parameter name='n o' direction='Output'/>" ++
    "<Parameter name='x_1'/></Parameters></Command>"

/-- What the document describes. -/
def reportDescriptor : CommandDescriptor where
  timeoutSeconds := 30
  kind := .storedProcedure
  text := "a$.\"b\"\";.\""
  parameters :=
    [⟨"@Id", .int, .input, true, none, none, none, none⟩,
      ⟨"n o", .nVarChar, .output, true, none, none, none, none⟩,
      ⟨"x_1", .nVarChar, .input, true, none, none, none, none⟩]

/-- The quoted component holds a quote, a semicolon and a point. The parameter between the other two
does not travel. -/
theorem object_statement_is_template_report :
    CommandDescriptor.compile reportDocument = .ok reportDescriptor ∧
      reportDescriptor.kind ≠ .text ∧ IsObjectName "a$.\"b\"\";.\"".toList ∧
      IsCall (reportDescriptor.bind (.ofList [("id", .text "7")]))
        ⟨"SELECT * FROM a$.\"b\"\";.\"(Id => $1, x_1 => $2)", [.value (.int 7), .null .text]⟩ := by
  have hd : CommandDescriptor.compile reportDocument = .ok reportDescriptor :=
    except_eq_ok_of_toOption (by decide +kernel)
  have hkind : reportDescriptor.kind ≠ .text := by decide
  -- what the statement is has been computed; that it is a call follows
  obtain ⟨hname, hstatement⟩ :=
    object_statement_is_template hd hkind (.ofList [("id", .text "7")])
  refine ⟨hd, hkind, (hname _).1 (except_eq_ok_of_toOption (by decide +kernel)), ?_⟩
  have hs : (reportDescriptor.bind (.ofList [("id", .text "7")])).statement =
      .ok ⟨"SELECT * FROM a$.\"b\"\";.\"(Id => $1, x_1 => $2)",
        [.value (.int 7), .null .text]⟩ :=
    except_eq_ok_of_toOption (by decide +kernel)
  obtain ⟨-, -, hcall⟩ := hstatement _ hs
  exact hcall rfl

end QueryGateway
