import QueryGateway.Files.Path
import QueryGateway.Sql.Statement

/-!
# Runners

What runs statements. The gateway asks a runner for the first column of a result, or for the rows of
the listing of databases; a runner answers with these or with an error. Every question is a `Call`,
so what the gateway asked can be listed.
-/

namespace QueryGateway

/-- **Where a statement runs:** the server of a tenant, and on it the database of its connection
string unless another one is meant. -/
structure ConnectionTarget where
  /-- The connection string of the tenant. -/
  connectionString : String
  /-- Another database on the same server, if one is meant. -/
  database : Option String := none
deriving DecidableEq

/-- **A statement ready to run,** with the time it may take. Nothing of the request is left in it
but the values that were bound. -/
structure PreparedCommand where
  /-- The statement. -/
  statement : Statement
  /-- The seconds that it may take. -/
  timeoutSeconds : Nat
deriving DecidableEq

/-- A row of the listing of databases, as the runner hands it over. Only the abbreviation and the
name are used to map what a request asks for; the rest is answered to the client. -/
structure DatabaseInfo where
  /-- The number of the database. -/
  id : Int32
  /-- The abbreviation that requests use. -/
  abbreviation : String
  /-- The name of the database. -/
  name : String
  /-- When the database was made. -/
  createDate : String
  /-- The level of compatibility. -/
  compatLevel : Int32
deriving DecidableEq

/-- What a runner is asked for. The two questions differ in what is made of the rows that come
back. -/
inductive Question where
  /-- The texts of the first column, without nulls. -/
  | firstColumn
  /-- The rows of the listing of databases. -/
  | databases
deriving DecidableEq

/-- **What a command was prepared from.** It is kept with every call, so that it can be said of a
call which descriptor and which values it comes from. -/
structure CommandSource where
  /-- The file of the descriptor. -/
  descriptor : FilePath
  /-- The values that were bound. -/
  values : ParameterValues
deriving DecidableEq

/-- **A question to a runner,** listed with the source of its command, which the runner does not
see. -/
structure Call where
  question : Question
  target : ConnectionTarget
  command : PreparedCommand
  source : CommandSource
deriving DecidableEq

/-- **What runs statements,** as its answers. A runner is a function of what it is asked: what a
database does between two questions is not part of this development. -/
structure Runner where
  /-- The texts of the first column of the result. -/
  firstColumn : ConnectionTarget → PreparedCommand → Except GatewayError (List String)
  /-- The rows of the listing of databases. -/
  databases : ConnectionTarget → PreparedCommand → Except GatewayError (List DatabaseInfo)

end QueryGateway
