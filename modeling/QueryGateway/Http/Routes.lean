import QueryGateway.Catalog
import QueryGateway.Http.Request
import QueryGateway.Http.Response

/-!
# Routes

Which part of the gateway answers a request. Some paths have an answer of their own, to be had with
GET or HEAD alone, and with HEAD only without its body. Every other path asks for a data source,
which is the same with every method. Paths are compared as they are written.
-/

namespace QueryGateway.Http

open Text

/-! ### Answers -/

/-- Content in a media type. Blank content is not found. -/
def contentResponse (media : MediaType) (body what : String) : Except GatewayError Response :=
  if isAllBlank body then .error (.notFound what)
  else .ok { status := 200, contentType := some media.contentType, body }

/-- The answer that the gateway lives. -/
def health : Response :=
  .json 200 (.object [("status", .string "ok")])

/-- The answer whether the data sources are there. It looks for the root directory alone, and
neither for descriptors nor for a database. -/
def readiness (files : FileTree) : Response :=
  if files.hasRoot then
    .json 200 (.object [("status", .string "ok"), ("data_sources", .string "ok")])
  else
    .json 503 (.object [("status", .string "degraded"), ("data_sources", .string "unavailable")])

/-- The answer what the gateway is. -/
def version : Response :=
  .json 200 (.object [("name", .string "data-gateway"), ("version", .string "0.1.0")])

/-- A row of the listing of databases as JSON. -/
def databaseJson (db : DatabaseInfo) : Json :=
  .object [("id", .integer db.id.toInt), ("abbr", .string db.abbreviation),
    ("name", .string db.name), ("crdate", .string db.createDate),
    ("compatlevel", .integer db.compatLevel.toInt)]

/-- The tenant of a request that needs one. No context, and a context that is not configured, are
refused in the same words. -/
def requireTenant (r : Request) : Serving Tenant := do
  let site ← Serving.site
  match r.context?.bind site.registry.find? with
  | some t => return t
  | none => Serving.fail (.tenantNotFound .noContext)

/-- The listing of databases. -/
def listDatabases (r : Request) : Serving Response := do
  let t ← requireTenant r
  let databases ← Catalog.listDatabases t
  return .json 200 (.object [("databases", .array (databases.map databaseJson))])

/-- The search for objects. -/
def searchObjects (r : Request) : Serving Response := do
  let t ← requireTenant r
  let body ← Catalog.searchObjects t (.ofQueryPairs r.pairs)
  Serving.lift (contentResponse .json body "dbobjects")

/-- The detail of an object. -/
def objectDetail (r : Request) : Serving Response := do
  let t ← requireTenant r
  let body ← Catalog.objectDetail t (.ofQueryPairs r.pairs)
  Serving.lift (contentResponse .json body "dbobject")

/-- **A data source.** An unknown context is served as if there were none. -/
def dataSource (r : Request) : Serving Response :=
  match endpoint? r.target.path with
  | none => Serving.fail (.notFound r.target.path)
  | some endpoint => do
    let site ← Serving.site
    let tenant := r.context?.bind site.registry.find?
    let resolution := resolve site.files tenant endpoint r.accepted
    let body ← resolution.artifact.text (.ofQueryPairs r.pairs)
    Serving.lift (contentResponse resolution.media body endpoint)

/-! ### Routing -/

/-- **The routes.** All paths that are none of the named ones are those of data sources. -/
inductive Route where
  | health
  | readiness
  | version
  | listDatabases
  | searchObjects
  | objectDetail
  | dataSource
deriving DecidableEq

namespace Route

/-- The paths with an answer of their own. -/
def named : List (String × Route) :=
  [("/health", .health), ("/ready", .readiness), ("/version", .version), ("/info", .version),
    ("/api/dbdatabases", .listDatabases), ("/api/dbobjects", .searchObjects),
    ("/api/dbobject", .objectDetail)]

/-- The route of a path. -/
def ofPath (path : String) : Route :=
  ((named.find? (·.1 = path)).map (·.2)).getD .dataSource

/-- Whether a method may be used on a route. -/
def allows (route : Route) (method : String) : Bool :=
  route = .dataSource || method = "GET" || method = "HEAD"

/-- The answer of a route. The three that answer from the site alone do not fail, and the others may
ask the runner. -/
def respond (route : Route) (r : Request) : Serving Response :=
  match route with
  | .health => pure Http.health
  | .readiness => do return Http.readiness (← Serving.site).files
  | .version => pure Http.version
  | .listDatabases => Http.listDatabases r
  | .searchObjects => Http.searchObjects r
  | .objectDetail => Http.objectDetail r
  | .dataSource => Http.dataSource r

/-- Whether the answer of a route goes to a method without its body. -/
def omitsBody (route : Route) (method : String) : Bool :=
  route != .dataSource && method = "HEAD"

/-- An answer of a route as it goes to a method. -/
def deliver (route : Route) (method : String) (response : Response) : Response :=
  if route.omitsBody method then { response with body := "" } else response

end Route

/-- The answer to a method that a route does not allow. -/
def methodNotAllowed : Response :=
  { status := 405, contentType := none, allow := some "GET,HEAD", body := "" }

/-- **Answering a request.** Errors are answered too, so there is always a response. -/
def answer (site : Site) (p : Progress) (r : Request) : Response × Progress :=
  let route := Route.ofPath r.target.path
  if route.allows r.method then
    match route.respond r site p with
    | (.ok response, p) => (route.deliver r.method response, p)
    | (.error e, p) => (route.deliver r.method (.ofError e), p)
  else (methodNotAllowed, p)

end QueryGateway.Http
