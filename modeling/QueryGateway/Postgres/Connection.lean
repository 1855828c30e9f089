import QueryGateway.Execution.Runner
import QueryGateway.Http.Percent
import QueryGateway.Http.RequestTarget

/-!
# Connections

What a client tells the server first: the user, the database and the options of the session. They
come from the connection string, which is an address; a target may name another database, and the
timeout of the command is an option besides those of the address.
-/

namespace QueryGateway.Postgres

open Text Http

/-- **What a client tells the server first.** It is all that a connection string comes to, as far as
a server can see it. -/
structure Startup where
  user : String
  /-- The database; the server chooses if there is none. -/
  database : Option String := none
  /-- The options of the session; empty if there are none. -/
  options : String := ""
deriving DecidableEq

namespace Startup

/-- The options with another piece behind them. -/
def addOptions (s : Startup) (piece : String) : Startup :=
  { s with options := if s.options.isEmpty then piece else s.options ++ " " ++ piece }

/-- An option and its value, as they are written. -/
def option (name value : String) : String :=
  "-c " ++ name ++ "=" ++ value

/-- The words for the ways of encryption. -/
def encryptionWords : List String :=
  ["disable", "allow", "prefer", "require", "verify-ca", "verify-full"]

/-- Whether the text is the number of a service on a host; an empty one leaves it open. -/
def isServiceNumber (cs : List Char) : Bool :=
  cs.isEmpty || (natural? cs).any (· < Nat.pow 2 16)

/-- Whether the text is four numbers with points between them, or has the colons of the longer
form. -/
def isHostAddress (s : String) : Bool :=
  let parts := splitChars '.' s.toList
  s.toList.contains ':' || (parts.length = 4 && parts.all fun part => (natural? part).any (· < 256))

/-- What a pair of the query of an address adds. Some pairs change what is sent, some are only
checked, and one that cannot be understood refuses the address; a pair of any other name is passed
over. -/
def applyPair? (s : Startup) (pair : String × String) : Option Startup :=
  let (name, value) := pair
  if name = "user" then some { s with user := value }
  else if name = "dbname" then some { s with database := some value }
  else if name = "options" then some (s.addOptions value)
  else if name = "sslmode" || name = "ssl-mode" then
    if asciiLower value ∈ encryptionWords then some s else none
  else if name = "statement-cache-capacity" then
    if (natural? value.toList).any (· < Nat.pow 2 64) then some s else none
  else if name = "hostaddr" then
    if isHostAddress value then some s else none
  else if name.startsWith "options[" && name.endsWith "]" then
    let inner := (name.toList.drop "options[".length).dropLast
    some (s.addOptions (option (String.ofList inner) value))
  else some s

/-- The parts of an address behind its scheme: the server with the user, the path, the query. -/
def splitAddress (cs : List Char) : List Char × List Char × List Char :=
  let cs := cs.takeWhile (· != '#')
  let isEnd := fun c => c = '/' || c = '?'
  let (path, query) := cutAt '?' (cs.dropWhile (!isEnd ·))
  (cs.takeWhile (!isEnd ·), path, query.getD [])

/-- The name of the user in front of a server, if it is not empty. -/
def userName? (server : List Char) : Option (List Char) :=
  let behind := server.reverse.takeWhile (· != '@')
  if behind.length = server.length then none
  else
    let user := (server.take (server.length - behind.length - 1)).takeWhile (· != ':')
    if user.isEmpty then none else some user

/-- The characters that stand in no name of a server. -/
def forbiddenHostChars : List Char :=
  [' ', '\t', '\n', '\r', '\x00', '<', '>', '[', ']', '\\', '^', '|', '@']

/-- Whether the host and the service of a server can be read, without the user in front. -/
def isServer (server : List Char) : Bool :=
  let host := (server.reverse.takeWhile (· != '@')).reverse
  match host with
  | '[' :: rest =>
    match rest.dropWhile (· != ']') with
    | [']'] => true
    | ']' :: ':' :: service => isServiceNumber service
    | _ => false
  | _ =>
    let (name, service) := cutAt ':' host
    !(name.any forbiddenHostChars.contains) && isServiceNumber (service.getD [])

/-- **Reading a connection string.** Without a user in it, `self` connects. The server is checked
but not kept, since only what is sent after connecting is told here. -/
def ofConnectionString? (self connectionString : String) : Option Startup := do
  let rest ← RequestTarget.afterScheme? (trimChars connectionString.toList)
  let (server, path, query) := splitAddress rest
  if !isServer server then none
  let user ←
    match userName? server with
    | none => some self
    | some name => decodePathPart? (String.ofList name)
  let path := path.dropWhile (· = '/')
  let database ←
    if path.isEmpty then some none else (decodePathPart? (String.ofList path)).map some
  (queryPairs (String.ofList query)).foldlM applyPair? { user, database }

/-- **The startup for a command** on a target. A database of the target comes before that of the
connection string, and the time out is sent as an option of the session. -/
def ofTarget? (self : String) (target : ConnectionTarget) (timeoutSeconds : Nat) :
    Option Startup := do
  let s ← ofConnectionString? self target.connectionString
  let s := { s with database := target.database.or s.database }
  let seconds := String.ofList (digits timeoutSeconds) ++ "s"
  return s.addOptions (option "statement_timeout" seconds)

end Startup

end QueryGateway.Postgres
