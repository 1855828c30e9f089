import QueryGateway.Error
import QueryGateway.Json.Value
import QueryGateway.Text.Blank
import QueryGateway.Text.LowerCase

/-!
# Settings

What the gateway is configured with: where the data sources are, whether compiled descriptors are
kept, connection strings by their keys, and contexts by theirs. A context has a name for people, the
key of its connection string and aliases for its databases.

Settings are used only after `validate`, which asks for a place of the data sources, for context
keys that are neither blank nor equal apart from case and blanks around them, and for aliases that
are complete.
-/

namespace QueryGateway

open Text

/-- An alias of a database. What requests call a database is here, and where it is stands in the
listing of the database itself. -/
structure AliasSettings where
  /-- The abbreviation that requests use. -/
  abbreviation : String
  /-- The name of the database. -/
  name : String
deriving DecidableEq

/-- The settings of a context. All of it may be left out: then the context has an empty name, no
connection string and no aliases. -/
structure ContextSettings where
  /-- The name for people. -/
  name : String := ""
  /-- The key of the connection string. -/
  connectionStringKey : String := ""
  /-- The aliases of the databases. -/
  databases : List AliasSettings := []
deriving DecidableEq

/-- **The settings of the gateway,** as they are read and before they are checked. Missing ones have
the defaults given here. -/
structure Settings where
  /-- Where the data sources are. -/
  dataSourcesPath : String := "data-sources"
  /-- Whether compiled descriptors are kept. -/
  cacheDescriptors : Bool := true
  /-- Connection strings by their keys. -/
  connectionStrings : List (String × String) := []
  /-- Contexts by their keys. -/
  contexts : List (String × ContextSettings) := []
deriving DecidableEq

/-- The key of a context, by which requests find it. -/
def contextKey (name : String) : String :=
  lower (trim name)

/-! ### Validation -/

/-- Whether an alias has both its parts. -/
def AliasSettings.isComplete (a : AliasSettings) : Bool :=
  !isAllBlank a.abbreviation && !isAllBlank a.name

/-- Checks contexts one after the other, none of which may have one of the keys seen before it. -/
def validateContexts (seen : List String) :
    List (String × ContextSettings) → Except ConfigError Unit
  | [] => .ok ()
  | (key, context) :: rest =>
    let normal := contextKey key
    if normal.isEmpty then .error (.validation .blankContextKey)
    else if normal ∈ seen then .error (.duplicateContext key)
    else if context.databases.all AliasSettings.isComplete then
      validateContexts (normal :: seen) rest
    else .error (.validation (.incompleteAlias key))

namespace Settings

/-- **Validation.** -/
def validate (s : Settings) : Except ConfigError Unit :=
  if isAllBlank s.dataSourcesPath then .error (.validation .blankDataSourcesPath)
  else validateContexts [] s.contexts

/-- The root of the data sources. -/
def root (s : Settings) : String :=
  trim s.dataSourcesPath

/-! ### Writing -/

/-- A context as JSON. -/
def contextJson (c : ContextSettings) : Json :=
  .object [("name", .string c.name), ("connectionStringKey", .string c.connectionStringKey),
    ("databases", .array (c.databases.map fun a =>
      .object [("abbr", .string a.abbreviation), ("name", .string a.name)]))]

/-- **Settings as JSON,** member by member as they are read. Each stands under the first of the
names that reading knows it by. -/
def toJson (s : Settings) : Json :=
  .object [("dataSourcesPath", .string s.dataSourcesPath),
    ("cacheDescriptors", .bool s.cacheDescriptors),
    ("connectionStrings", .object (s.connectionStrings.map fun c => (c.1, .string c.2))),
    ("contexts", .object (s.contexts.map fun c => (c.1, contextJson c.2)))]

end Settings

end QueryGateway
