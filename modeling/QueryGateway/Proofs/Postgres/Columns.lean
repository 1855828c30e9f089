import QueryGateway.Postgres.Server
import QueryGateway.Proofs.Text.Utf8

/-!
# Texts of columns

What a runner makes of the first column of a result. Nulls are left out, so all that counts is the
octets of the other cells in the order of the rows (`ResultSet.octets`): the column is read if each
of them is (`firstColumn_eq_ok_iff`), and a single one that is not makes the whole command fail
(`firstColumn_eq_error_iff`).

Octets of text are passed on if the type of the column holds text or is known as `XML` in capitals.
PostgreSQL's own type for XML is known as the catalog spells it, in small letters, and is not among
these (`xml_is_refused`): its cells are refused, whatever they hold, though the same cells are
passed on in a column of text.
-/

namespace QueryGateway.Postgres

open Text

/-! ### Cells that are not null -/

namespace ResultSet

/-- **The octets of the first column** without nulls, in the order of the rows. A row without cells
counts as one with a null. -/
def octets (r : ResultSet) : List Octets :=
  (r.rows.map fun row => row.head?.join).filterMap id

end ResultSet

theorem cellText_some {t : ColumnType} {octets : Octets} {s : String}
    (h : octetsText? t octets = some s) : cellText t (some octets) = .ok (some s) := by
  rw [cellText, h]

theorem cellText_eq_error {t : ColumnType} {octets : Octets} (h : octetsText? t octets = none) :
    cellText t (some octets) = .error .notDecodable := by
  rw [cellText, h]

/-- The texts of cells, as long as each has one. -/
theorem mapM_cellText_of_texts {t : ColumnType} {texts : List String} {cells : List Cell}
    (h : (cells.filterMap id).map (octetsText? t) = texts.map some) :
    ∃ found, cells.mapM (cellText t) = .ok found ∧ found.filterMap id = texts := by
  induction cells generalizing texts with
  | nil =>
    obtain rfl : texts = [] := List.map_eq_nil_iff.1 h.symm
    exact ⟨[], rfl, rfl⟩
  | cons cell cells ih =>
    -- a null has no octets and comes back as a null; a cell with octets has its text
    cases cell with
    | none =>
      obtain ⟨found, hfound, htexts⟩ := ih h
      refine ⟨none :: found, ?_, htexts⟩
      rw [List.mapM_cons, hfound]
      rfl
    | some octets =>
      change octetsText? t octets :: (cells.filterMap id).map (octetsText? t) = _ at h
      obtain ⟨s, more, rfl, hs, hmore⟩ := List.map_eq_cons_iff.1 h.symm
      obtain ⟨found, hfound, htexts⟩ := ih hmore.symm
      refine ⟨some s :: found, ?_, congrArg (s :: ·) htexts⟩
      rw [List.mapM_cons, cellText_some hs.symm, hfound]
      rfl

/-- One cell without a text is enough. -/
theorem mapM_cellText_of_not_text {t : ColumnType} {cells : List Cell} {octets : Octets}
    (hmem : octets ∈ cells.filterMap id) (h : octetsText? t octets = none) :
    cells.mapM (cellText t) = .error .notDecodable := by
  induction cells with
  | nil => cases hmem
  | cons cell cells ih =>
    have hrest : octets ∈ cells.filterMap id →
        ∀ found, cellText t cell = .ok found → (cell :: cells).mapM (cellText t) =
          .error .notDecodable := by
      intro hoctets found hfound
      rw [List.mapM_cons, hfound, ih hoctets]
      rfl
    -- the cell is another one, which may have its text, or the one without
    cases cell with
    | none => exact hrest hmem none rfl
    | some other =>
      change octets ∈ other :: cells.filterMap id at hmem
      cases hother : octetsText? t other with
      | none =>
        rw [List.mapM_cons, cellText_eq_error hother]
        rfl
      | some s =>
        refine hrest ((List.mem_cons.1 hmem).resolve_left ?_) (some s) (cellText_some hother)
        rintro rfl
        cases h.symm.trans hother

/-- All cells have texts, or one has none. -/
theorem exists_texts_or (t : ColumnType) (cells : List Octets) :
    (∃ texts : List String, cells.map (octetsText? t) = texts.map some) ∨
      ∃ octets ∈ cells, octetsText? t octets = none := by
  induction cells with
  | nil => exact .inl ⟨[], rfl⟩
  | cons octets cells ih =>
    -- if this one has its text, the rest decides
    cases hoctets : octetsText? t octets with
    | none => exact .inr ⟨octets, List.mem_cons_self, hoctets⟩
    | some s =>
      obtain ⟨texts, htexts⟩ | ⟨other, hother, hnone⟩ := ih
      · exact .inl ⟨s :: texts, by rw [List.map_cons, hoctets, htexts, List.map_cons]⟩
      · exact .inr ⟨other, List.mem_cons_of_mem _ hother, hnone⟩

namespace ResultSet

variable {r : ResultSet} {t : ColumnType} {more : List ColumnType}

theorem firstColumn_eq (h : r.columns = t :: more) :
    r.firstColumn = (r.rows.map fun row => row.head?.join).mapM (cellText t) >>=
      fun found => .ok (found.filterMap id) := by
  rw [firstColumn, h, List.mapM_map]
  rfl

/-- **A column is read** if all cells that are not null are. -/
theorem firstColumn_eq_ok_iff (h : r.columns = t :: more) {texts : List String} :
    r.firstColumn = .ok texts ↔ r.octets.map (octetsText? t) = texts.map some := by
  rw [firstColumn_eq h]
  refine ⟨fun hcolumn => ?_, fun htexts => ?_⟩
  · -- all texts, or one cell without: the outcome tells which
    obtain ⟨found, hfound⟩ | ⟨octets, hoctets, hnone⟩ := exists_texts_or t r.octets
    · obtain ⟨cells, hcells, rfl⟩ := mapM_cellText_of_texts hfound
      rw [hcells] at hcolumn
      rw [hfound, ← Except.ok.inj hcolumn]
    · rw [mapM_cellText_of_not_text hoctets hnone] at hcolumn
      cases hcolumn
  · obtain ⟨cells, hcells, rfl⟩ := mapM_cellText_of_texts htexts
    rw [hcells]
    rfl

/-- **A column fails** if one cell does. -/
theorem firstColumn_eq_error_iff (h : r.columns = t :: more) {e : DatabaseError} :
    r.firstColumn = .error e ↔
      e = .notDecodable ∧ ∃ octets ∈ r.octets, octetsText? t octets = none := by
  rw [firstColumn_eq h]
  constructor
  · intro hcolumn
    obtain ⟨found, hfound⟩ | ⟨octets, hoctets, hnone⟩ := exists_texts_or t r.octets
    · obtain ⟨cells, hcells, -⟩ := mapM_cellText_of_texts hfound
      rw [hcells] at hcolumn
      cases hcolumn
    · rw [mapM_cellText_of_not_text hoctets hnone] at hcolumn
      exact ⟨(Except.error.inj hcolumn).symm, octets, hoctets, hnone⟩
  · rintro ⟨rfl, octets, hoctets, hnone⟩
    rw [mapM_cellText_of_not_text hoctets hnone]
    rfl

end ResultSet

/-! ### Texts that are passed on -/

/-- **The types whose cells are passed on** if they are text: those that the server sends as text,
and the one whose name the program looks for. -/
def ColumnType.PassesText (t : ColumnType) : Prop :=
  t.holdsText = true ∨ t.name = "XML"

/-- The types whose cells are read as JSON, by their names in capitals. -/
def ColumnType.IsJson (t : ColumnType) : Prop :=
  t.name = "JSON" ∨ t.name = "JSONB"

instance (t : ColumnType) : Decidable t.PassesText :=
  inferInstanceAs (Decidable (_ ∨ _))

instance (t : ColumnType) : Decidable t.IsJson :=
  inferInstanceAs (Decidable (_ ∨ _))

theorem octetsText?_eq_some {t : ColumnType} (ht : ¬ t.IsJson) (h : t.PassesText) (s : String) :
    octetsText? t (Utf8.encode s) = some s := by
  rw [ColumnType.IsJson, not_or] at ht
  by_cases hxml : t.name = "XML"
  · simp [octetsText?, CellFormat.ofType, hxml, Utf8.decode?_encode]
  · simp [octetsText?, CellFormat.ofType, ht, hxml, h.resolve_right hxml, Utf8.decode?_encode]

theorem octetsText?_eq_none {t : ColumnType} (ht : ¬ t.IsJson) (h : ¬ t.PassesText)
    (octets : Octets) : octetsText? t octets = none := by
  rw [ColumnType.IsJson, not_or] at ht
  rw [ColumnType.PassesText, not_or] at h
  simp [octetsText?, CellFormat.ofType, ht, h]

namespace Server

variable {server : Server} {self : String} {target : ConnectionTarget} {command : PreparedCommand}
  {t : ColumnType} {more : List ColumnType} {texts : List String}

theorem firstColumn_runner (hrun : (server.run self target command).1 = .ok server.result) :
    (server.runner self).firstColumn target command =
      server.result.firstColumn.mapError .database := by
  change ((server.run self target command).1.bind ResultSet.firstColumn).mapError _ = _
  rw [hrun]
  rfl

/-- **A server answers with its result** if it is reached with parameters that have a binary form
and does not refuse. -/
theorem run_eq_ok_iff : (server.run self target command).1 = .ok server.result ↔
    (Startup.ofTarget? self target command.timeoutSeconds).isSome = true ∧
      (encodeAll? command.statement.params).isSome = true ∧ server.refuses = false := by
  -- each of the three may fail, and then the server has no result
  unfold run
  dsimp only
  cases Startup.ofTarget? self target command.timeoutSeconds with
  | none => simp
  | some startup =>
    dsimp only
    cases encodeAll? command.statement.params with
    | none => simp
    | some encoded => cases server.refuses <;> simp

/-- **A column of texts comes back as it is,** in the order of the rows, if its type passes text on
or if there is nothing but nulls. -/
theorem firstColumn_eq_ok_of_texts (hrun : (server.run self target command).1 = .ok server.result)
    (hcolumns : server.result.columns = t :: more) (ht : ¬ t.IsJson)
    (hcells : server.result.octets = texts.map Utf8.encode) (h : t.PassesText ∨ texts = []) :
    (server.runner self).firstColumn target command = .ok texts := by
  have hcolumn : server.result.firstColumn = .ok texts := by
    -- each text is decoded from its own octets, which the type passes on
    rw [ResultSet.firstColumn_eq_ok_iff hcolumns, hcells, List.map_map]
    refine List.map_congr_left fun s hs => ?_
    exact octetsText?_eq_some ht (h.resolve_right (List.ne_nil_of_mem hs)) s
  rw [firstColumn_runner hrun, hcolumn]
  rfl

/-- **A column of another type is refused** as soon as one cell is not null. -/
theorem firstColumn_eq_error_of_texts
    (hrun : (server.run self target command).1 = .ok server.result)
    (hcolumns : server.result.columns = t :: more) (ht : ¬ t.IsJson)
    (hcells : server.result.octets = texts.map Utf8.encode) (h : ¬ t.PassesText)
    (hsome : texts ≠ []) :
    (server.runner self).firstColumn target command = .error (.database .notDecodable) := by
  obtain ⟨s, rest, rfl⟩ := List.exists_cons_of_ne_nil hsome
  have hcolumn : server.result.firstColumn = .error .notDecodable := by
    rw [ResultSet.firstColumn_eq_error_iff hcolumns]
    refine ⟨rfl, Utf8.encode s, ?_, octetsText?_eq_none ht h _⟩
    rw [hcells]
    exact List.mem_cons_self
  rw [firstColumn_runner hrun, hcolumn]
  rfl

end Server

/-! ### XML -/

/-- The type for XML, as every catalog spells it: in small letters, which is what the server
reports. -/
def ColumnType.xml : ColumnType := ⟨"xml"⟩

/-- The type for text. -/
def ColumnType.text : ColumnType := ⟨"TEXT"⟩

/-- The same server with another type for the first column. -/
def Server.retype (server : Server) (t : ColumnType) : Server :=
  { server with result := { server.result with columns := t :: server.result.columns.tail } }

theorem Server.run_retype {server : Server} {self : String} {target : ConnectionTarget}
    {command : PreparedCommand} (hrun : (server.run self target command).1 = .ok server.result)
    (t : ColumnType) :
    ((server.retype t).run self target command).1 = .ok (server.retype t).result := by
  rw [run_eq_ok_iff] at hrun ⊢
  exact hrun

/-- **Columns of XML are refused.** A result with a first column of PostgreSQL's type for XML is
read exactly if there is nothing but nulls in it; with any text it is an error of the database.
Under the type for text, and under the name that the gateway compares with, the same cells come back
as they are in the order of the rows. -/
theorem xml_is_refused {server : Server} {self : String} {target : ConnectionTarget}
    {command : PreparedCommand} (hrun : (server.run self target command).1 = .ok server.result)
    {more : List ColumnType} (hcolumns : server.result.columns = .xml :: more)
    {texts : List String} (hcells : server.result.octets = texts.map Utf8.encode) :
    ((server.runner self).firstColumn target command = .ok texts ↔ texts = []) ∧
    (texts ≠ [] →
      (server.runner self).firstColumn target command = .error (.database .notDecodable)) ∧
    ((server.retype .text).runner self).firstColumn target command = .ok texts ∧
    ((server.retype ⟨"XML"⟩).runner self).firstColumn target command = .ok texts := by
  have hrefused : texts ≠ [] → (server.runner self).firstColumn target command =
      .error (.database .notDecodable) :=
    Server.firstColumn_eq_error_of_texts hrun hcolumns (by decide) hcells (by decide)
  have hpasses : ∀ t : ColumnType, ¬ t.IsJson → t.PassesText →
      ((server.retype t).runner self).firstColumn target command = .ok texts := fun t ht hpass =>
    Server.firstColumn_eq_ok_of_texts (Server.run_retype hrun t) rfl ht hcells (.inl hpass)
  refine ⟨⟨fun hok => ?_, fun hnone => ?_⟩, hrefused, hpasses _ (by decide) (by decide),
    hpasses _ (by decide) (by decide)⟩
  · -- read, and yet some text: that would be refused
    refine Decidable.byContradiction fun hsome => ?_
    rw [hrefused hsome] at hok
    cases hok
  · exact Server.firstColumn_eq_ok_of_texts hrun hcolumns (by decide) hcells (.inr hnone)

/-- A server with an element and a null in a column of XML. -/
def elementServer : Server :=
  ⟨⟨[.xml], [[some (Utf8.encode "<a/>")], [none]]⟩, false⟩

theorem xml_is_refused_element :
    let target : ConnectionTarget := ⟨"postgres://gateway@localhost/app", none⟩
    let command : PreparedCommand := ⟨⟨"SELECT x", []⟩, 30⟩
    (elementServer.run "root" target command).1 = .ok elementServer.result ∧
      elementServer.result.octets = ["<a/>"].map Utf8.encode ∧
      (elementServer.runner "root").firstColumn target command =
        .error (.database .notDecodable) ∧
      ((elementServer.retype .text).runner "root").firstColumn target command = .ok ["<a/>"] := by
  intro target command
  have hrun : (elementServer.run "root" target command).1 = .ok elementServer.result :=
    Server.run_eq_ok_iff.2 ⟨by decide +kernel, rfl, rfl⟩
  have hcells : elementServer.result.octets = ["<a/>"].map Utf8.encode := rfl
  obtain ⟨-, hrefused, htext, -⟩ := xml_is_refused hrun rfl hcells
  exact ⟨hrun, rfl, hrefused (List.cons_ne_nil _ _), htext⟩

end QueryGateway.Postgres
