import QueryGateway.Text.Blank
import QueryGateway.Text.LowerCase
import QueryGateway.Text.Split

/-!
# Media types

The two media types that data are served in, and which of them a client accepts.
-/

namespace QueryGateway

open Text

/-- **The media types.** -/
inductive MediaType where
  | json
  | xml
deriving DecidableEq

namespace MediaType

/-- The name of a media type in headers. -/
def contentType : MediaType → String
  | .json => "application/json"
  | .xml => "application/xml"

/-- The name of a media type in file names. -/
def extension : MediaType → String
  | .json => "json"
  | .xml => "xml"

end MediaType

/-- **Which media types a client lists.** -/
structure AcceptedMedia where
  xml : Bool
  json : Bool
deriving DecidableEq

namespace AcceptedMedia

/-- The media type that an item of the list names, without its parameters. -/
def itemName (item : List Char) : List Char :=
  trimChars (item.takeWhile (· != ';'))

/-- **The media types in a header:** items with commas between them, in any case. -/
def parse (header : String) : AcceptedMedia :=
  let items := (splitChars ',' (lowerChars header.toList)).map itemName
  ⟨items.contains MediaType.xml.contentType.toList,
    items.contains MediaType.json.contentType.toList⟩

/-- The media type that is served: XML only if JSON is not listed too. -/
def preferred (a : AcceptedMedia) : MediaType :=
  if a.xml && !a.json then .xml else .json

end AcceptedMedia

end QueryGateway
