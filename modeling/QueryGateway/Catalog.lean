import QueryGateway.Execution.Command

/-!
# The database catalog

Three questions about the databases of a tenant, each answered by a descriptor of its own: which
databases there are, which objects in some of them match, and what one object is like. Requests name
databases by abbreviations; the listing, which the aliases of the tenant go into, gives the names.

An abbreviation is compared apart from the case of ASCII letters. A search runs over the databases
that the listing maps; a detail runs in the database that it maps, and never without one.
-/

namespace QueryGateway

open Text

namespace Catalog

/-- The descriptor of the listing of databases. -/
def databasesDescriptor : String := "dbdatabases.sqlds"

/-- The descriptor of the search for objects. -/
def objectsDescriptor : String := "dbobjects.jsonds"

/-- The descriptor of the detail of an object. -/
def objectDescriptor : String := "dbobject.jsonds"

/-- **The databases of a tenant.** There are none without a connection string or without the
descriptor of the listing. -/
def listDatabases (t : Tenant) : Serving (List DatabaseInfo) := do
  let site ← Serving.site
  match site.registry.connectionString t, site.files.find? databasesDescriptor with
  | .ok connectionString, some path =>
    let values := ParameterValues.empty.insert "dbmappings" (.text t.aliasMappings)
    let command ← prepare path values
    Serving.fetchDatabases { connectionString } command ⟨path, values⟩
  | _, _ => return []

/-- The text supplied under a name; empty if there is none. -/
def suppliedText (values : ParameterValues) (name : String) : String :=
  ((values.get? name).map RawValue.display).getD ""

/-- The abbreviations in a text, with semicolons between them. -/
def abbreviations (requested : String) : List String :=
  ((split ';' requested).map trim).filter (!·.isEmpty)

/-- The names of the listed databases that one of the abbreviations stands for. -/
def mappedNames (requested : List String) (databases : List DatabaseInfo) : List String :=
  (databases.filter fun db => requested.any fun a => equalAsciiCase a db.abbreviation).map (·.name)

/-- The text of the result of a descriptor in the root; empty if there is no such file. -/
def runNamed (target : ConnectionTarget) (name : String) (values : ParameterValues) :
    Serving String := do
  let site ← Serving.site
  match site.files.find? name with
  | some path => runText target path values
  | none => return ""

/-- **Searching for objects** in the databases that the request names. Without an abbreviation it
is refused before the listing is asked for; with some it is refused afterwards if they name no
database. The names that are found take the place of the abbreviations in the values that are
bound. -/
def searchObjects (t : Tenant) (values : ParameterValues) : Serving String := do
  let target ← connectionTarget t
  let requested := abbreviations (suppliedText values "searchdbs")
  if requested.isEmpty then Serving.fail (.badRequest .searchDatabases)
  else
    let databases ← listDatabases t
    let names := join ";" (mappedNames requested databases)
    if isAllBlank names then Serving.fail (.badRequest .searchDatabases)
    else runNamed target objectsDescriptor (values.insert "searchdbs" (.text names))

/-- The name of the first listed database that an abbreviation stands for, unless it is blank. -/
def mappedName? (requested : String) (databases : List DatabaseInfo) : Option String :=
  ((databases.find? fun db => equalAsciiCase db.abbreviation (trim requested)).map (·.name)).filter
    (!isAllBlank ·)

/-- **The detail of an object** in the database that the request names. The listing is asked for
even without an abbreviation, since a row may have none; the command then runs on the database that
is found, without the abbreviation among its values. -/
def objectDetail (t : Tenant) (values : ParameterValues) : Serving String := do
  let target ← connectionTarget t
  let requested := suppliedText values "objdb"
  let databases ← listDatabases t
  match mappedName? requested databases with
  | none => Serving.fail (.badRequest .objectDatabase)
  | some name =>
    runNamed { target with database := some name } objectDescriptor (values.erase "objdb")

end Catalog

end QueryGateway
