import QueryGateway.Execution.Runner
import QueryGateway.Json.Evaluation
import QueryGateway.Text.Utf8

/-!
# Cells of results

What the cells of a result say. A cell is null or holds octets in the binary form of the type of its
column, and what it says depends on the name under which the type is known: the types of texts hold
their octets as they are, JSON is read and written anew, and XML is passed on.
-/

namespace QueryGateway.Postgres

open Text

/-- **The type of a column,** by the name under which the client knows it. The types that every
server has are known in capitals, all others as the server spells them. -/
structure ColumnType where
  /-- The name. -/
  name : String
deriving DecidableEq

/-- A cell. -/
abbrev Cell := Option Octets

namespace ColumnType

/-- The types that hold text. -/
def textNames : List String := ["TEXT", "NAME", "CHAR", "VARCHAR", "UNKNOWN"]

/-- Whether cells of the type are text. -/
def holdsText (t : ColumnType) : Bool :=
  t.name ∈ textNames || equalAsciiCase t.name "citext"

end ColumnType

/-- **How the first column becomes text.** It is decided by the type of the column alone, so all
cells of a result are treated alike. -/
inductive CellFormat where
  /-- Read as JSON and written anew. -/
  | json
  /-- Passed on. -/
  | verbatim
  | text
deriving DecidableEq

/-- The format of the cells of a type. -/
def CellFormat.ofType (t : ColumnType) : CellFormat :=
  if t.name = "JSON" || t.name = "JSONB" then .json
  else if t.name = "XML" then .verbatim
  else .text

/-- The octets of the JSON in a cell. In one of the two types a number for the version stands in
front. -/
def jsonOctets? (t : ColumnType) (octets : Octets) : Option Octets :=
  if t.name = "JSONB" then
    match octets with
    | 1 :: rest => some rest
    | _ => none
  else some octets

/-- The text of octets that are not null. A type that is neither JSON nor passed on has a text only
if the server sends it as one; for any other the column is an error. -/
def octetsText? (t : ColumnType) (octets : Octets) : Option String :=
  match CellFormat.ofType t with
  | .json => do
    let text ← Utf8.decode? (← jsonOctets? t octets)
    return (← Json.value? text).render
  | .verbatim => Utf8.decode? octets
  | .text => if t.holdsText then Utf8.decode? octets else none

/-- **The text of a cell of the first column.** A null is nothing, whatever its type. -/
def cellText (t : ColumnType) : Cell → Except DatabaseError (Option String)
  | none => .ok none
  | some octets =>
    match octetsText? t octets with
    | some s => .ok (some s)
    | none => .error .notDecodable

/-! ### Rows -/

/-- **A result:** the types of the columns, and the rows. -/
structure ResultSet where
  columns : List ColumnType
  rows : List (List Cell)

/-- The texts of the first column without nulls, as they come. A result without columns has none. -/
def ResultSet.firstColumn (r : ResultSet) : Except DatabaseError (List String) :=
  match r.columns with
  | [] => .ok []
  | t :: _ => do
    let texts ← r.rows.mapM fun row => cellText t row.head?.join
    return texts.filterMap id

/-- The integer in octets, the most significant first, in two's complement. -/
def signedValue (octets : Octets) : Int :=
  let pattern : Nat := octets.foldl (fun n o => 256 * n + o.toNat) 0
  Int.bmod pattern (Nat.pow 256 octets.length)

/-- The integer of a cell, for columns of integers of thirty-two bits alone. A null and a column of
another type have none. -/
def cellInt32? (t : ColumnType) : Cell → Option Int32
  | none => none
  | some octets =>
    let n := signedValue octets
    if t.name = "INT4" && 1 ≤ octets.length && octets.length ≤ 8 &&
        -Int.pow 2 31 ≤ n && n < Int.pow 2 31 then
      some (Int32.ofInt n)
    else none

/-- The text of a cell that must not be null. -/
def cellString? (t : ColumnType) : Cell → Option String
  | none => none
  | some octets => if t.holdsText then Utf8.decode? octets else none

/-- A row of the listing of databases, by position: five columns are taken, whatever they are named,
and more are passed over. -/
def databaseRow? : List ColumnType → List Cell → Option DatabaseInfo
  | t₀ :: t₁ :: t₂ :: t₃ :: t₄ :: _, c₀ :: c₁ :: c₂ :: c₃ :: c₄ :: _ => do
    return {
      id := ← cellInt32? t₀ c₀
      abbreviation := ← cellString? t₁ c₁
      name := ← cellString? t₂ c₂
      createDate := ← cellString? t₃ c₃
      compatLevel := ← cellInt32? t₄ c₄ }
  | _, _ => none

/-- The rows of the listing of databases. -/
def ResultSet.databases (r : ResultSet) : Except DatabaseError (List DatabaseInfo) :=
  match r.rows.mapM (databaseRow? r.columns) with
  | some rows => .ok rows
  | none => .error .notDecodable

end QueryGateway.Postgres
