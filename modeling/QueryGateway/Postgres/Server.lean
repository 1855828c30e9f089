import QueryGateway.Postgres.Cell
import QueryGateway.Postgres.Connection
import QueryGateway.Postgres.Wire

/-!
# Servers

A server as a function: it answers every statement with one result, or refuses it. An `Exchange`
says what the server saw of a command. It hears of the client before the parameters are encoded, so
a value without a binary form still leaves a startup behind.
-/

namespace QueryGateway.Postgres

/-- **A server** that answers always the same. It is enough to say what becomes of a result on its
way to the client, and what of the request reaches the server. -/
structure Server where
  /-- The result of every statement. -/
  result : ResultSet
  /-- Whether it refuses statements instead. -/
  refuses : Bool

/-- **What a server saw of a command.** Each step is seen only if the one before went through: the
startup, then the statement with the types, then the parameters. -/
structure Exchange where
  startup : Startup
  /-- The statement and the types of its parameters, if it came that far. -/
  statement : Option (String × List ParameterType) := none
  /-- The parameters, if the statement was not refused. -/
  params : Option (List (Option Octets)) := none

/-- The binary forms of parameters, if each has one. A null is a parameter without octets, which is
not the same as one that cannot be encoded. -/
def encodeAll? : List BindValue → Option (List (Option Octets))
  | [] => some []
  | v :: rest =>
    match encode v, encodeAll? rest with
    | .null, some more => some (none :: more)
    | .octets bytes, some more => some (some bytes :: more)
    | _, _ => none

namespace Server

/-- **Running a command** on a server: the result, and what the server saw if it was contacted. -/
def run (server : Server) (self : String) (target : ConnectionTarget) (command : PreparedCommand) :
    Except DatabaseError ResultSet × Option Exchange :=
  match Startup.ofTarget? self target command.timeoutSeconds with
  | none => (.error (.configuration "no address"), none)
  | some startup =>
    let params := command.statement.params
    match encodeAll? params with
    | none => (.error .notEncodable, some { startup })
    | some encoded =>
      let statement := some (command.statement.sql, params.map announced)
      if server.refuses then (.error .refused, some { startup, statement })
      else (.ok server.result, some { startup, statement, params := some encoded })

/-- **A runner** that runs commands on a server. Both questions send the command in the same way,
and differ in how the result is read. -/
def runner (server : Server) (self : String) : Runner where
  firstColumn target command :=
    ((server.run self target command).1.bind ResultSet.firstColumn).mapError .database
  databases target command :=
    ((server.run self target command).1.bind ResultSet.databases).mapError .database

end Server

end QueryGateway.Postgres
