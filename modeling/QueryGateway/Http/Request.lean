import QueryGateway.Artifact.Media
import QueryGateway.Http.Percent
import QueryGateway.Http.RequestTarget
import QueryGateway.Text.Blank
import QueryGateway.Text.LowerCase

/-!
# Requests

What the gateway reads from a request: its context, the media types it accepts, the pairs of its
query and the endpoint that its path names. Only headers of printable ASCII characters and tabs can
be read; others count as absent.
-/

namespace QueryGateway.Http

open Text

/-- **A request,** as far as it is looked at: its body is read by none of the routes. -/
structure Request where
  /-- The method. -/
  method : String
  /-- The target. -/
  target : RequestTarget
  /-- The headers, in order, with the octets of their values as text. -/
  headers : List (String × String)
deriving DecidableEq

/-- Whether a header value can be read. -/
def isReadable (value : String) : Bool :=
  value.toList.all fun c => c = '\t' || (0x20 ≤ c.toNat && c.toNat < 0x7F)

/-- A text without blanks around it, unless nothing else is left. -/
def nonBlank? (s : String) : Option String :=
  if isAllBlank s then none else some (trim s)

namespace Request

/-- The values of a header, in order. -/
def header (r : Request) (name : String) : List String :=
  (r.headers.filter fun h => equalAsciiCase h.1 name).map (·.2)

/-- The pairs of the query. -/
def pairs (r : Request) : List (String × String) :=
  queryPairs r.target.query

/-- The context in the query: that of the first pair of the name. -/
def queryContext? (r : Request) : Option String :=
  match r.pairs.find? fun pair => equalAsciiCase pair.1 "ctx" with
  | some pair => nonBlank? pair.2
  | none => none

/-- The context in the headers: that of the first header of the name. -/
def headerContext? (r : Request) : Option String :=
  match r.header "X-API-Context" with
  | value :: _ => if isReadable value then nonBlank? value else none
  | [] => none

/-- **The context of a request.** The query comes before the headers. -/
def context? (r : Request) : Option String :=
  r.queryContext?.or r.headerContext?

/-- **The media types that a request accepts,** over all headers that list some. -/
def accepted (r : Request) : AcceptedMedia :=
  .parse (join "," ((r.header "accept").filter isReadable))

end Request

/-- **The endpoint that a path names:** the part behind a first part `api` in any case, decoded.
Empty parts do not count. -/
def endpoint? (path : String) : Option String :=
  match (split '/' path).filter (!·.isEmpty) with
  | first :: second :: _ => if equalAsciiCase first "api" then decodePathPart? second else none
  | _ => none

end QueryGateway.Http
