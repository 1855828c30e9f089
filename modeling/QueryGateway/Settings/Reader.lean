import QueryGateway.Json.Syntax
import QueryGateway.Settings.Basic

/-!
# Reading settings

Settings are JSON. Each record may be an object or, with its fields in order, an array; a field goes
by its name with a small or a capital letter in front. Unknown members are passed over, a member
given twice is an error, and what is missing takes its first value, but for the parts of an alias.
The tables of connection strings and contexts are objects, in which the last member of a name wins.
-/

namespace QueryGateway

open Json (Tree)

namespace Settings

/-! ### Records and tables -/

/-- The index of the field that goes by a name. -/
def fieldIndex? (fields : List (List String)) (name : String) : Option Nat :=
  fields.findIdx? fun names => name ∈ names

/-- The values of fields, some already given, from members. A member of no field is passed over. -/
def collectMembers? (fields : List (List String)) (given : List (Option Tree)) :
    List (Option String × Tree) → Option (List (Option Tree))
  | [] => some given
  | (none, _) :: _ => none
  | (some name, value) :: rest =>
    match fieldIndex? fields name with
    | none => collectMembers? fields given rest
    | some i =>
      match given[i]? with
      | some none => collectMembers? fields (given.set i (some value)) rest
      | _ => none

/-- **The values of the fields of a record,** each of which goes by the given names. -/
def fields? (fields : List (List String)) : Tree → Option (List (Option Tree))
  | .object members => collectMembers? fields (fields.map fun _ => none) members
  | .array items =>
    if items.length ≤ fields.length then
      some (items.map some ++ List.replicate (fields.length - items.length) none)
    else none
  | _ => none

/-- The value of a field, or its first value if it is missing. -/
def fieldOr? {α : Type} (decode : Tree → Option α) (missing : Option α) : Option Tree → Option α
  | some t => decode t
  | none => missing

/-- The members of a table with a value under a key: in place of the one that is there, or at the
end. -/
def putMember {α : Type} (key : String) (value : α) : List (String × α) → List (String × α)
  | [] => [(key, value)]
  | entry :: rest =>
    if entry.1 = key then (key, value) :: rest else entry :: putMember key value rest

/-- The members of a table after some have been read. A name that stands twice keeps its place and
takes the later value, as a map does; a name that is no text refuses the whole table. -/
def tableAfter? {α : Type} (decode : Tree → Option α) (table : List (String × α)) :
    List (Option String × Tree) → Option (List (String × α))
  | [] => some table
  | (some key, value) :: rest =>
    match decode value with
    | some a => tableAfter? decode (putMember key a table) rest
    | none => none
  | (none, _) :: _ => none

/-- **The members of a table.** -/
def table? {α : Type} (decode : Tree → Option α) : Tree → Option (List (String × α))
  | .object members => tableAfter? decode [] members
  | _ => none

/-- The text of a string. -/
def string? : Tree → Option String
  | .string s => s
  | _ => none

/-- A truth value. -/
def bool? : Tree → Option Bool
  | .bool b => some b
  | _ => none

/-- The items of an array. -/
def list? {α : Type} (decode : Tree → Option α) : Tree → Option (List α)
  | .array items => items.mapM decode
  | _ => none

/-! ### The records -/

/-- An alias, which has both its parts: here nothing may be left out, unlike in the settings around
it. -/
def alias? (t : Tree) : Option AliasSettings := do
  match ← fields? [["abbr", "Abbr"], ["name", "Name"]] t with
  | [abbreviation, name] =>
    return ⟨← fieldOr? string? none abbreviation, ← fieldOr? string? none name⟩
  | _ => none

/-- A context. Each part may be spelled with a small or a capital first letter, and a part that is
missing has its default. -/
def context? (t : Tree) : Option ContextSettings := do
  let missing : ContextSettings := {}
  match ← fields? [["name", "Name"], ["connectionStringKey", "ConnectionStringKey"],
    ["databases", "Databases"]] t with
  | [name, key, databases] =>
    return {
      name := ← fieldOr? string? missing.name name
      connectionStringKey := ← fieldOr? string? missing.connectionStringKey key
      databases := ← fieldOr? (list? alias?) missing.databases databases }
  | _ => none

/-- **Settings in a tree.** A part with a value of another kind refuses the settings, and so does
one that is given twice; members of other names are passed over. -/
def ofTree? (t : Tree) : Option Settings := do
  let missing : Settings := {}
  match ← fields? [["dataSourcesPath", "DataSourcesPath"], ["cacheDescriptors", "CacheDescriptors"],
    ["connectionStrings", "ConnectionStrings"], ["contexts", "Contexts"]] t with
  | [path, cache, strings, contexts] =>
    return {
      dataSourcesPath := ← fieldOr? string? missing.dataSourcesPath path
      cacheDescriptors := ← fieldOr? bool? missing.cacheDescriptors cache
      connectionStrings := ← fieldOr? (table? string?) missing.connectionStrings strings
      contexts := ← fieldOr? (table? context?) missing.contexts contexts }
  | _ => none

/-- **Reading and validating settings.** What is not JSON, what is not of the form, and what breaks
a condition are refused in this order, so the first that applies is reported. -/
def parse (text : String) : Except ConfigError Settings :=
  match Json.parse? text with
  | none => .error (.load .notJson)
  | some tree =>
    match ofTree? tree with
    | none => .error (.load .notSettings)
    | some s => do
      s.validate
      return s

end Settings

end QueryGateway
