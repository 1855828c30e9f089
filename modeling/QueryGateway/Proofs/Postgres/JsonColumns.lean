import QueryGateway.Proofs.Json.Keeping
import QueryGateway.Proofs.Postgres.Columns

/-!
# Columns of JSON

What a runner makes of a first column of JSON. Every cell is evaluated and written anew, so that a
column comes back with the values that it has, as far as values go: nesting, strings and the last
member of every name, whole numbers of sixty-four bits and short decimal numbers, and every other
number in double precision (`json_is_kept`).

Values do not go all the way. A longer number changes, and a number beyond all bounds, half of a
character or too many levels make the command fail (`json_is_not_always_kept`).
-/

namespace QueryGateway.Postgres

open Json Text

/-! ### Cells -/

/-- The octets of a JSON text in a cell. The binary type has its version in front of the text, and
the other type the text alone. -/
def ColumnType.jsonCell (t : ColumnType) (source : String) : Octets :=
  if t.name = "JSONB" then 1 :: Utf8.encode source else Utf8.encode source

/-- The cell of a JSON type is read and printed again: the mark before a binary one is taken off,
and the text behind it is decoded as it was sent. -/
theorem octetsText?_jsonCell {t : ColumnType} (ht : t.IsJson) (source : String) :
    octetsText? t (t.jsonCell source) = (Json.value? source).map Json.render := by
  have hformat : CellFormat.ofType t = .json := by
    unfold CellFormat.ofType
    rw [if_pos]
    simpa [ColumnType.IsJson] using ht
  have hoctets : jsonOctets? t (t.jsonCell source) = some (Utf8.encode source) := by
    -- the binary type has its mark before the text, and the other one has the text alone
    unfold jsonOctets? ColumnType.jsonCell
    by_cases hname : t.name = "JSONB"
    · simp [hname]
    · simp [hname]
  rw [octetsText?, hformat]
  dsimp only
  rw [hoctets]
  dsimp only [Option.bind_eq_bind, Option.bind_some]
  rw [Utf8.decode?_encode, Option.bind_some]
  cases Json.value? source with
  | none => rfl
  | some j => rfl

/-- **What stays of a JSON text:** the text denotes what stays of the tree that the source
denotes. -/
def Restates (source text : String) : Prop :=
  ∀ tree, IsText source tree → ∃ tree', IsText text tree' ∧ tree.Keeps tree'

theorem exists_octetsText? {t : ColumnType} (ht : t.IsJson) {source : String} {tree : Tree}
    (h : IsText source tree) (hfits : tree.Fits deepestLevel) :
    ∃ text, octetsText? t (t.jsonCell source) = some text ∧ Restates source text := by
  obtain ⟨j, hvalue, tree', htext, hkeeps⟩ := exists_value? h hfits
  refine ⟨j.render, ?_, fun other hother => ?_⟩
  · rw [octetsText?_jsonCell ht, hvalue, Option.map_some]
  obtain rfl := h.unique hother
  exact ⟨tree', htext, hkeeps⟩

/-- Cells of JSON texts that fit have texts, each restating its own source. -/
theorem exists_texts {t : ColumnType} (ht : t.IsJson) {sources : List String}
    (h : ∀ source ∈ sources, ∃ tree, IsText source tree ∧ tree.Fits deepestLevel) :
    ∃ texts : List String,
      (sources.map t.jsonCell).map (octetsText? t) = texts.map some ∧
        List.Forall₂ Restates sources texts := by
  induction sources with
  | nil => exact ⟨[], rfl, .nil⟩
  | cons source sources ih =>
    obtain ⟨tree, htree, hfits⟩ := h source List.mem_cons_self
    obtain ⟨text, htext, hrestates⟩ := exists_octetsText? ht htree hfits
    obtain ⟨texts, htexts, hmore⟩ := ih fun s hs => h s (List.mem_cons_of_mem _ hs)
    refine ⟨text :: texts, ?_, .cons hrestates hmore⟩
    rw [List.map_cons, List.map_cons, htext, htexts, List.map_cons]

/-! ### Columns -/

/-- **Columns of JSON keep their values.** The cells that are not null come back in the order of the
rows, each as a text that denotes what stays of its value: the same nesting and strings, the last
member of every name, the same number for whole numbers of sixty-four bits and for short decimal
numbers, and one in double precision for all others. -/
theorem json_is_kept {server : Server} {self : String} {target : ConnectionTarget}
    {command : PreparedCommand} (hrun : (server.run self target command).1 = .ok server.result)
    {t : ColumnType} {more : List ColumnType} (hcolumns : server.result.columns = t :: more)
    (ht : t.IsJson) {sources : List String}
    (hcells : server.result.octets = sources.map t.jsonCell)
    (hsources : ∀ source ∈ sources, ∃ tree, IsText source tree ∧ tree.Fits deepestLevel) :
    ∃ texts, (server.runner self).firstColumn target command = .ok texts ∧
      List.Forall₂ Restates sources texts := by
  obtain ⟨texts, htexts, hrestates⟩ := exists_texts ht hsources
  refine ⟨texts, ?_, hrestates⟩
  -- no cell fails, so the column is the texts of its cells
  have hcolumn : server.result.firstColumn = .ok texts := by
    rw [ResultSet.firstColumn_eq_ok_iff hcolumns, hcells, htexts]
  rw [Server.firstColumn_runner hrun, hcolumn]
  rfl

/-- A server with a cell of JSON and a null below it. -/
def Server.ofCell (t : ColumnType) (source : String) : Server :=
  ⟨⟨[t], [[some (t.jsonCell source)], [none]]⟩, false⟩

/-- An object with an array of an integer and a truth value. -/
def pairTree : Tree :=
  .object [(some "a", .array [.number (integerNumeral 1), .bool true])]

/-- The text says an object with an array in it, put together as the grammar builds it. -/
theorem isText_pair : IsText "\x7b\"a\":[1,true]\x7d" pairTree := by
  have hone : Writes "1".toList (.value (.number (integerNumeral 1))) := writes_integerText 1
  have htrue : Writes "true".toList (.value (.bool true)) := .true
  have harray : Writes "[1,true]".toList
      (.value (.array [.number (integerNumeral 1), .bool true])) :=
    writes_array (.cons hone (.cons htrue .nil))
  have hmember := writes_member "a" harray
  have hobject : Writes "\x7b\"a\":[1,true]\x7d".toList (.value pairTree) :=
    writes_object (.cons hmember .nil)
  exact writes_item hobject

/-- Its one number is small, and it is two levels deep. -/
theorem fits_pair : pairTree.Fits deepestLevel := by
  refine .object (by simp) fun m hm => ?_
  obtain rfl := List.mem_singleton.1 hm
  refine .array fun t ht => ?_
  obtain rfl | ht := List.mem_cons.1 ht
  · -- the number is one, far below the greatest that is read
    refine .number _ ?_
    have hone : (integerNumeral 1).magnitude = 1 := by simp [magnitude_integerNumeral]
    have hle : 1 ≤ greatestRead := ten_pow_le_greatestRead (Nat.zero_le _)
    rw [hone]
    exact_mod_cast hle
  · obtain rfl := List.mem_singleton.1 ht
    exact .bool _ true

theorem json_is_kept_pair :
    let target : ConnectionTarget := ⟨"postgres://gateway@localhost/app", none⟩
    let command : PreparedCommand := ⟨⟨"SELECT x", []⟩, 30⟩
    let server := Server.ofCell ⟨"JSONB"⟩ "\x7b\"a\":[1,true]\x7d"
    (server.run "root" target command).1 = .ok server.result ∧
      server.result.octets = ["\x7b\"a\":[1,true]\x7d"].map (ColumnType.jsonCell ⟨"JSONB"⟩) ∧
      pairTree.Fits deepestLevel ∧
      ∃ texts, (server.runner "root").firstColumn target command = .ok texts ∧
        List.Forall₂ Restates ["\x7b\"a\":[1,true]\x7d"] texts := by
  intro target command server
  have hrun : (server.run "root" target command).1 = .ok server.result :=
    Server.run_eq_ok_iff.2 ⟨by decide +kernel, rfl, rfl⟩
  refine ⟨hrun, rfl, fits_pair, json_is_kept hrun rfl (.inr rfl) rfl fun source hsource => ?_⟩
  obtain rfl := List.mem_singleton.1 hsource
  exact ⟨pairTree, isText_pair, fits_pair⟩

/-! ### What does not stay -/

/-- A server with one cell of JSON answers with the cell printed again, or with a failure where it
cannot be read. -/
theorem firstColumn_ofCell {t : ColumnType} (ht : t.IsJson) {source self : String}
    {target : ConnectionTarget} {command : PreparedCommand}
    (hrun : ((Server.ofCell t source).run self target command).1 =
      .ok (Server.ofCell t source).result) :
    ((Server.ofCell t source).runner self).firstColumn target command =
      match (Json.value? source).map Json.render with
      | some text => .ok [text]
      | none => .error (.database .notDecodable) := by
  have hcell : (Server.ofCell t source).result.octets = [t.jsonCell source] := rfl
  rw [Server.firstColumn_runner hrun]
  -- the cell is all there is, so the column has its text or fails with it
  cases hvalue : (Json.value? source).map Json.render with
  | some text =>
    have hcolumn : (Server.ofCell t source).result.firstColumn = .ok [text] := by
      rw [ResultSet.firstColumn_eq_ok_iff rfl, hcell, List.map_singleton, octetsText?_jsonCell ht,
        hvalue, List.map_singleton]
    rw [hcolumn]
    rfl
  | none =>
    have hcolumn : (Server.ofCell t source).result.firstColumn = .error .notDecodable := by
      rw [ResultSet.firstColumn_eq_error_iff rfl]
      exact ⟨rfl, t.jsonCell source, List.mem_singleton.2 rfl, by
        rw [octetsText?_jsonCell ht, hvalue]⟩
    rw [hcolumn]
    rfl

/-- Arrays in arrays, so many of them around one. -/
def nested : Nat → Tree
  | 0 => .array []
  | n + 1 => .array [nested n]

theorem writes_nested (n : Nat) :
    Writes (List.replicate (n + 1) '[' ++ List.replicate (n + 1) ']') (.value (nested n)) := by
  induction n with
  | zero => exact .emptyArray areSpaces_nil
  | succ n ih =>
    have harray := Writes.array (.lastItem (writes_item ih))
    rw [List.append_assoc, ← List.replicate_succ'] at harray
    exact harray

theorem isDigits_of_all {ds : List Char} (hne : ds ≠ []) (h : ds.all Char.isDigit = true) :
    IsDigits ds :=
  ⟨hne, List.all_eq_true.1 h⟩

/-- A number beyond sixty-four bits, and what is written for it. -/
def longNumeral : Numeral :=
  ⟨false, "18446744073709551617".toList, none, none⟩

def roundedNumeral : Numeral :=
  ⟨false, ['1'], some "8446744073709552".toList, some 19⟩

theorem isText_longNumeral : IsText "18446744073709551617" (.number longNumeral) := by
  have hwhole : IsWhole "18446744073709551617".toList :=
    isWhole_of_head?_ne (isDigits_of_all (by decide +kernel) (by decide +kernel))
      (by decide +kernel)
  exact writes_item (.positive rfl
    ⟨hwhole, [], [], .absent, .absent, (List.append_nil _).symm⟩)

theorem isText_roundedNumeral : IsText "1.8446744073709552e+19" (.number roundedNumeral) := by
  have hfraction : IsDigits "8446744073709552".toList :=
    isDigits_of_all (by decide +kernel) (by decide +kernel)
  have hexponent : IsExponent (some 19) ['e', '+', '1', '9'] :=
    .plus 'e' ['1', '9'] (.inl rfl) (isDigits_of_all (List.cons_ne_nil _ _) rfl)
  refine writes_item (.positive rfl
    ⟨isWhole_singleton rfl, _, _, .present _ hfraction, hexponent, ?_⟩)
  decide +kernel

/-- The number that comes back differs from the one that was sent: four digits of it were rounded
away. -/
theorem number_ne : roundedNumeral.number ≠ longNumeral.number := by
  have hlong : longNumeral.significand = 18446744073709551617 := by decide +kernel
  have hrounded : roundedNumeral.significand = 18446744073709552 := by decide +kernel
  have hpower : roundedNumeral.power = 3 := by decide +kernel
  have hpower' : longNumeral.power = 0 := by decide +kernel
  have hsign : roundedNumeral.isNegative = false := rfl
  have hsign' : longNumeral.isNegative = false := rfl
  rw [Numeral.number, Numeral.number, hsign, hsign', Numeral.magnitude, Numeral.magnitude, hlong,
    hrounded, hpower, hpower']
  norm_num

theorem isText_huge : IsText "1e400" (.number ⟨false, ['1'], none, some 400⟩) := by
  have hexponent : IsExponent (some 400) ['e', '4', '0', '0'] :=
    .plain 'e' ['4', '0', '0'] (.inl rfl) (isDigits_of_all (List.cons_ne_nil _ _) rfl)
  refine writes_item (.positive rfl
    ⟨isWhole_singleton rfl, _, _, .absent, hexponent, ?_⟩)
  decide +kernel

/-- Half of a character, escaped. -/
theorem isText_half : IsText "\"\\ud800\"" (.string none) := by
  have hunits : IsUnits ['\\', 'u', 'd', '8', '0', '0'] [.code 0xD800] :=
    .code 'd' '8' '0' '0' 0xD800 rfl .nil
  have hstring := writes_item (.string hunits)
  exact hstring

/-- So many arrays in each other. -/
def deepText (n : Nat) : String :=
  String.ofList (List.replicate (n + 1) '[' ++ List.replicate (n + 1) ']')

theorem isText_deepText (n : Nat) : IsText (deepText n) (nested n) := by
  rw [IsText, deepText, String.toList_ofList]
  exact writes_item (writes_nested n)

/-- One level too many. -/
theorem valueWithin?_nested (n : Nat) : valueWithin? n (nested n) = none := by
  induction n with
  | zero => rfl
  | succ n ih => rw [nested, valueWithin?, itemsWithin?, ih, Option.map_none]

/-- **JSON does not always come back as it is.** A whole number of more than sixty-four bits comes
back as another number, and cells with a number beyond all bounds, with half of a character or with
one level too many make the command fail. -/
theorem json_is_not_always_kept :
    let target : ConnectionTarget := ⟨"postgres://gateway@localhost/app", none⟩
    let command : PreparedCommand := ⟨⟨"SELECT x", []⟩, 30⟩
    let column := fun source =>
      ((Server.ofCell ⟨"JSON"⟩ source).runner "root").firstColumn target command
    (∃ n n', IsText "18446744073709551617" (.number n) ∧
      column "18446744073709551617" = .ok ["1.8446744073709552e+19"] ∧
      IsText "1.8446744073709552e+19" (.number n') ∧ n'.number ≠ n.number) ∧
    (∃ tree, IsText "1e400" tree ∧ column "1e400" = .error (.database .notDecodable)) ∧
    (∃ tree, IsText "\"\\ud800\"" tree ∧
      column "\"\\ud800\"" = .error (.database .notDecodable)) ∧
    (∃ tree, IsText (deepText deepestLevel) tree ∧
      column (deepText deepestLevel) = .error (.database .notDecodable)) := by
  intro target command column
  -- each of the columns is decided by reading its cell
  have hcolumn : ∀ source, column source = match (Json.value? source).map Json.render with
      | some text => .ok [text]
      | none => .error (.database .notDecodable) := fun source =>
    firstColumn_ofCell (.inl rfl) (Server.run_eq_ok_iff.2 ⟨by decide +kernel, rfl, rfl⟩)
  have hlong : (Json.value? "18446744073709551617").map Json.render =
      some "1.8446744073709552e+19" := by decide +kernel
  have hhuge : (Json.value? "1e400").map Json.render = none := by decide +kernel
  -- half a character is text of the grammar, but no text of characters
  have hhalf : (Json.value? "\"\\ud800\"").map Json.render = none := by
    rw [Json.value?, parse?_of_isText isText_half]
    rfl
  -- one level more than the deepest that is read
  have hdeep : (Json.value? (deepText deepestLevel)).map Json.render = none := by
    rw [Json.value?, parse?_of_isText (isText_deepText _), Option.bind_some, valueWithin?_nested,
      Option.map_none]
  refine ⟨⟨_, _, isText_longNumeral, ?_, isText_roundedNumeral, number_ne⟩,
    ⟨_, isText_huge, ?_⟩, ⟨_, isText_half, ?_⟩, ⟨_, isText_deepText deepestLevel, ?_⟩⟩
  · rw [hcolumn, hlong]
  · rw [hcolumn, hhuge]
  · rw [hcolumn, hhalf]
  · rw [hcolumn, hdeep]

end QueryGateway.Postgres
