/-!
# Errors

Everything that can go wrong, as causes. Each family has one wording, and `GatewayError` joins the
families to what a client is told: a status, a code, a message and sometimes details.

A family whose errors may also come from outside the gateway has a form `described`, which carries
the wording of the other side.
-/

namespace QueryGateway

/-! ### Files -/

/-- **Why a file cannot be read.** The kinds are those that the program tells apart when it reads
one; what else can go wrong is described by a text. -/
inductive FileError where
  /-- Nothing has the name. -/
  | notFound
  /-- A directory has the name. -/
  | isDirectory
  /-- A part of the path before the last is a file. -/
  | notDirectory
  /-- The name holds a character that no name holds. -/
  | invalidName
  /-- The name is longer than names can be. -/
  | nameTooLong
  /-- The content is not text. -/
  | notText
  | described (text : String)
deriving DecidableEq

/-- The wording of an error of files. The text is what the client sees behind the mark of the
error's kind, so it is the same on every run. -/
def FileError.message : FileError → String
  | .notFound => "No such file or directory (os error 2)"
  | .isDirectory => "Is a directory (os error 21)"
  | .notDirectory => "Not a directory (os error 20)"
  | .invalidName => "file name contained an unexpected NUL byte"
  | .nameTooLong => "File name too long (os error 36)"
  | .notText => "stream did not contain valid UTF-8"
  | .described text => text

/-! ### Settings -/

/-- Why settings cannot be loaded: the file cannot be read, or what stands in it is not what
settings are written in. -/
inductive LoadFault where
  | unreadable (e : FileError)
  /-- The text is not JSON. -/
  | notJson
  /-- The JSON has not the form of settings. -/
  | notSettings
  | described (text : String)
deriving DecidableEq

/-- The wording of a fault of loading, which stands behind the mark of the loader. -/
def LoadFault.message : LoadFault → String
  | .unreadable e => e.message
  | .notJson => "the text is not JSON"
  | .notSettings => "the JSON is not in the form of settings"
  | .described text => text

/-- Why settings are refused although they could be read: each kind is one condition that a set of
contexts has to meet. -/
inductive ValidationFault where
  | blankDataSourcesPath
  | blankContextKey
  /-- An alias of the context lacks its abbreviation or its name. -/
  | incompleteAlias (context : String)
  | described (text : String)
deriving DecidableEq

/-- The wording of a fault of validation. Where a context is at fault it is named, so that its entry
can be found. -/
def ValidationFault.message : ValidationFault → String
  | .blankDataSourcesPath => "dataSourcesPath must not be blank"
  | .blankContextKey => "context key must not be blank"
  | .incompleteAlias context =>
    "context " ++ context ++ ": database alias requires abbr and name"
  | .described text => text

/-- **Why there are no settings.** The three kinds differ in where they arise: reading the file,
checking one context by itself, and checking the contexts against each other. -/
inductive ConfigError where
  | load (fault : LoadFault)
  | validation (fault : ValidationFault)
  /-- A second context has the key, apart from case and blanks around it. -/
  | duplicateContext (key : String)
deriving DecidableEq

/-- The wording of an error of settings. The key that two contexts share is shown as it came out,
without case and blanks. -/
def ConfigError.message : ConfigError → String
  | .load fault => "config load: " ++ fault.message
  | .validation fault => "validation: " ++ fault.message
  | .duplicateContext key =>
    "duplicate context: '" ++ key ++ "' (context names are case-insensitive)"

/-! ### Command descriptors -/

/-- Why a command descriptor cannot be compiled or used. The faults of names of objects and
arguments arise when a statement is made, since only then are they written into one. -/
inductive DescriptorFault where
  /-- The document is not well-formed XML. -/
  | notWellFormed
  /-- The root element has another tag. -/
  | wrongRoot (tag : String)
  /-- A parameter has no name, or markers alone for one. -/
  | namelessParameter
  /-- A second parameter has the name. -/
  | duplicateParameter (name : String)
  /-- The text of a command that names an object is no name. -/
  | invalidObjectName (text : String)
  /-- The name of a parameter of a procedure is no name of an argument. -/
  | invalidArgumentName (name : String)
  | described (text : String)
deriving DecidableEq

/-- The wording of a fault of a descriptor, which names the part of the document that is at
fault. -/
def DescriptorFault.message : DescriptorFault → String
  | .notWellFormed => "xml"
  | .wrongRoot tag => "root element must be <Command>, found <" ++ tag ++ ">"
  | .namelessParameter => "<Parameter> requires a name"
  | .duplicateParameter name => "duplicate parameter '" ++ name ++ "'"
  | .invalidObjectName text => "'" ++ text ++ "' is not a valid object name"
  | .invalidArgumentName name => "parameter name '" ++ name ++ "' is not a valid argument name"
  | .described text => text

/-- **Why a descriptor is refused.** -/
inductive DescriptorError where
  | malformed (fault : DescriptorFault)
  /-- The declared type of a parameter is none. -/
  | unresolvedType (parameter token : String)
deriving DecidableEq

/-- The wording of an error of descriptors. -/
def DescriptorError.message : DescriptorError → String
  | .malformed fault => "malformed command descriptor: " ++ fault.message
  | .unresolvedType parameter token =>
    "unresolved parameter type '" ++ token ++ "' for parameter '" ++ parameter ++ "'"

/-! ### Requests and databases -/

/-- **What a request lacks.** A parameter without a value is reported by name, and the two catalog
questions by the value that they are asked with. -/
inductive RequestFault where
  /-- A parameter that needs a value has none. -/
  | missingValue (parameter : String)
  /-- No database to search in. -/
  | searchDatabases
  /-- No database to look an object up in. -/
  | objectDatabase
  | described (text : String)
deriving DecidableEq

/-- The wording of a fault of a request. The parameter is named as the descriptor declares it, which
need not be how the request spells it. -/
def RequestFault.message : RequestFault → String
  | .missingValue parameter => "parameter '" ++ parameter ++ "' requires a value"
  | .searchDatabases => "Missing or invalid searchdbs."
  | .objectDatabase => "Missing or invalid objdb."
  | .described text => text

/-- **Why no tenant serves a request.** -/
inductive TenantFault where
  /-- The request names no context, or one that is not configured. -/
  | noContext
  | described (text : String)
deriving DecidableEq

/-- The wording of a missing tenant. -/
def TenantFault.message : TenantFault → String
  | .noContext => "Missing or invalid context. Use ?ctx=... or 'X-API-Context' header."
  | .described text => text

/-- **What the database did wrong.** Everything from an unusable connection string to a cell that
cannot be decoded comes back as one of these, since a runner has no other way to fail. -/
inductive DatabaseError where
  /-- The connection string is of no use. -/
  | configuration (text : String)
  | rowNotFound
  | poolClosed
  /-- The answers make no sense. -/
  | protocol (text : String)
  /-- The server refused the statement. -/
  | refused
  /-- A parameter has no encoding. -/
  | notEncodable
  /-- A cell has no value of the type that is asked for. -/
  | notDecodable
deriving DecidableEq

/-- The wording of an error of the database. The first kind is the one that the status tells apart
from the others. -/
def DatabaseError.message : DatabaseError → String
  | .configuration text => "error with configuration: " ++ text
  | .rowNotFound => "no rows returned by a query that expected to return at least one row"
  | .poolClosed => "attempted to acquire a connection on a closed pool"
  | .protocol text => "encountered unexpected or invalid data: " ++ text
  | .refused => "error returned from database"
  | .notEncodable => "error occurred while encoding a value"
  | .notDecodable => "error occurred while decoding a value"

/-! ### What a client is told -/

/-- **An error of the gateway,** by the part of the program that found it. The status and the code
of a response are read off the kind alone, and the message adds what was at fault. -/
inductive GatewayError where
  | config (e : ConfigError)
  | descriptor (e : DescriptorError)
  /-- Nothing answers the request for what is named. -/
  | notFound (what : String)
  | badRequest (fault : RequestFault)
  | tenantNotFound (fault : TenantFault)
  /-- The context has no connection string. -/
  | badConnection (context : String)
  | database (e : DatabaseError)
  | file (e : FileError)
deriving DecidableEq

namespace GatewayError

/-- **The wording of an error.** It is what a client gets to read, so most kinds are marked with a
word in front. -/
def message : GatewayError → String
  | .config e => e.message
  | .descriptor e => e.message
  | .notFound what => "not found: " ++ what
  | .badRequest fault => "bad request: " ++ fault.message
  | .tenantNotFound fault => fault.message
  | .badConnection context => "no connection string configured for context '" ++ context ++ "'"
  | .database e => "database: " ++ e.message
  | .file e => "io: " ++ e.message

/-- The status of the response to an error. Faults of the settings, the files and the database are
those of the server, and all others count as the request's, an unusable connection string
included. -/
def status : GatewayError → Nat
  | .config _ => 500
  | .descriptor _ => 400
  | .notFound _ => 404
  | .badRequest _ => 400
  | .tenantNotFound _ => 400
  | .badConnection _ => 400
  | .database (.configuration _) => 400
  | .database _ => 500
  | .file _ => 500

/-- The code of an error, which clients compare instead of its wording. An unusable connection
string has the code of a missing one, whoever found it. -/
def code : GatewayError → String
  | .config _ => "config_error"
  | .descriptor _ => "descriptor_error"
  | .notFound _ => "not_found"
  | .badRequest _ => "bad_request"
  | .tenantNotFound _ => "invalid_context"
  | .badConnection _ => "bad_connection"
  | .database (.configuration _) => "bad_connection"
  | .database _ => "database_error"
  | .file _ => "io_error"

/-- What an error says beyond its message, as named texts. -/
def details : GatewayError → List (String × String)
  | .descriptor (.unresolvedType parameter token) => [("parameter", parameter), ("type", token)]
  | .badConnection context => [("context", context)]
  | _ => []

end GatewayError

end QueryGateway
