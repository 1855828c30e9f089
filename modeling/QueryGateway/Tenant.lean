import QueryGateway.Settings.Basic
import QueryGateway.Text.Split

/-!
# Tenants

The contexts of validated settings as tenants. A tenant has a normal key; requests find it by any
spelling of the key. Whether it has a usable connection string is known only when one is needed.
-/

namespace QueryGateway

open Text

/-- **An alias of a database,** without blanks around its parts. The blanks are taken off once,
here, and not where the alias is used. -/
structure DatabaseAlias where
  /-- The abbreviation that requests use. -/
  abbreviation : String
  /-- The name of the database. -/
  actualName : String
deriving DecidableEq

/-- **A configured context,** as requests get to it: with its normal key, and all blanks taken off
where they do not count. -/
structure Tenant where
  /-- The normal key, which also stands in the names of the tenant's files. -/
  key : String
  /-- The name for people. -/
  name : String
  /-- The key of the connection string. -/
  connectionStringKey : String
  /-- The aliases, as configured. -/
  databases : List DatabaseAlias
deriving DecidableEq

/-- **The aliases in one text:** abbreviation and name with an equals sign between them, and
semicolons between the aliases. -/
def Tenant.aliasMappings (t : Tenant) : String :=
  join ";" (t.databases.map fun db => db.abbreviation ++ "=" ++ db.actualName)

/-- The tenant of a context. The name for people is kept with its blanks, as it is only shown. -/
def Tenant.ofContext (key : String) (c : ContextSettings) : Tenant where
  key := contextKey key
  name := c.name
  connectionStringKey := trim c.connectionStringKey
  databases := c.databases.map fun a => ⟨trim a.abbreviation, trim a.name⟩

/-- **The tenants of the gateway** and the connection strings. A tenant has the key of its string
and not the string itself, so two tenants may share one. -/
structure TenantRegistry where
  /-- The tenants, no two of one key. -/
  tenants : List Tenant
  /-- Connection strings by their keys. -/
  connectionStrings : List (String × String)
deriving DecidableEq

namespace TenantRegistry

/-- The tenants with one more, in place of the one of its key or at the end. -/
def put (t : Tenant) : List Tenant → List Tenant
  | [] => [t]
  | other :: rest => if other.key = t.key then t :: rest else other :: put t rest

/-- **The tenants of settings.** -/
def ofSettings (s : Settings) : TenantRegistry where
  tenants := s.contexts.foldl (fun ts c => put (.ofContext c.1 c.2) ts) []
  connectionStrings := s.connectionStrings

/-- **The tenant that a request names.** A blank name names none. -/
def find? (r : TenantRegistry) (name : String) : Option Tenant :=
  if isAllBlank name then none else r.tenants.find? fun t => t.key = contextKey name

/-- **The connection string of a tenant.** Three ways to have none are reported alike: no key, a key
with nothing under it, and a blank string there. -/
def connectionString (r : TenantRegistry) (t : Tenant) : Except GatewayError String :=
  if t.connectionStringKey.isEmpty then .error (.badConnection t.key)
  else
    match r.connectionStrings.find? (·.1 = t.connectionStringKey) with
    | some (_, s) => if isAllBlank s then .error (.badConnection t.key) else .ok s
    | none => .error (.badConnection t.key)

end TenantRegistry

end QueryGateway
