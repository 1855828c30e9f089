import QueryGateway.Error
import QueryGateway.Json.Value

/-!
# Responses

What the gateway answers. A body is JSON that the gateway writes itself, or content that is passed
on as it is.
-/

namespace QueryGateway.Http

/-- **The answer to a request,** as far as it is told here. The two headers are those that depend on
the request, and either may be absent. -/
structure Response where
  /-- The status. -/
  status : Nat
  /-- The type of the content, if there is any. -/
  contentType : Option String
  /-- The methods that the path allows, if the request used another. -/
  allow : Option String := none
  /-- The body. -/
  body : String
deriving DecidableEq

/-- The type of JSON content. -/
def jsonContentType : String := "application/json"

namespace Response

/-- A response with JSON that the gateway writes. -/
def json (status : Nat) (value : Json) : Response :=
  { status, contentType := some jsonContentType, body := value.render }

/-- An error as JSON: its code, its message and what details there are. -/
def errorJson (e : GatewayError) : Json :=
  let details :=
    if e.details.isEmpty then []
    else [("details", .object (e.details.map fun d => (d.1, .string d.2)))]
  .object [("error", .object
    ([("code", .string e.code), ("message", .string e.message)] ++ details))]

/-- **The response to an error.** -/
def ofError (e : GatewayError) : Response :=
  json e.status (errorJson e)

end Response

end QueryGateway.Http
