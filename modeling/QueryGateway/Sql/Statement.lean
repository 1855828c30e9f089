import QueryGateway.Command.Binding
import QueryGateway.Error
import QueryGateway.Sql.ObjectName

/-!
# Statements

Turning a bound command into a statement with numbered parameters. Only parameters that travel to
the database take part, and each of them must hold a value or null.

* The text of a text command is kept, but for references to such parameters, which become numbers.
  A parameter gets its number at its first reference and keeps it.
* A procedure is called with all such parameters by name, in declared order.
* A table is read as a whole.
-/

namespace QueryGateway

open Text

/-- **A parameter of a statement.** A null keeps the target, so that the server learns its type. -/
inductive BindValue where
  | null (target : Target)
  | value (v : SqlValue)
deriving DecidableEq

namespace BindValue

/-- The target of a parameter of a statement. -/
def target : BindValue → Target
  | .null t => t
  | .value v => v.target

/-- The parameter for what a parameter of the command holds, unless that is nothing. -/
def ofBound? (target : Target) : BoundValue → Option BindValue
  | .unset => none
  | .null => some (.null target)
  | .value v => some (.value v)

end BindValue

/-- **A statement with numbered parameters.** The text and the values travel apart from each other,
and the numbers in the text say which value goes where. -/
structure Statement where
  /-- The text. -/
  sql : String
  /-- The parameters; the first has number one. -/
  params : List BindValue
deriving DecidableEq

namespace Sql

/-- **The slots of a command:** for each parameter what travels to the database for it, if anything
does. -/
def bindSlots : List (ParameterDescriptor × BoundValue) →
    Except RequestFault (List (Option BindValue))
  | [] => .ok []
  | (p, held) :: rest =>
    if p.direction.isBound then
      match BindValue.ofBound? p.target held with
      | some v => do return some v :: (← bindSlots rest)
      | none => .error (.missingValue p.name)
    else do return none :: (← bindSlots rest)

/-! ### Text commands -/

/-- A numbered parameter as it stands in a statement. -/
def placeholder (n : Nat) : List Char :=
  '$' :: digits n

/-- The number of a parameter, given the parameters that have numbers already, and those
afterwards. -/
def numberOf (order : List Nat) (i : Nat) : Nat × List Nat :=
  match order.idxOf? i with
  | some k => (k + 1, order)
  | none => (order.length + 1, order ++ [i])

/-- The text of segments in which references are numbered, and the parameters with numbers. `index?`
gives the parameter that a name refers to. -/
def numberSegments (index? : List Char → Option Nat) (order : List Nat) :
    List Segment → List Char × List Nat
  | [] => ([], order)
  | .verbatim cs :: rest =>
    let (text, order) := numberSegments index? order rest
    (cs ++ text, order)
  | .reference name :: rest =>
    match index? name with
    | some i =>
      let (n, order) := numberOf order i
      let (text, order) := numberSegments index? order rest
      (placeholder n ++ text, order)
    | none =>
      let (text, order) := numberSegments index? order rest
      (marker :: name ++ text, order)

/-- The parameter that a name in the text of a command refers to, if something travels for it. -/
def referent? (d : CommandDescriptor) (slots : List (Option BindValue)) (name : List Char) :
    Option Nat :=
  (d.position? (parameterKey (String.ofList name))).filter fun i => slots[i]?.join.isSome

/-- **The statement of a text command.** -/
def numberMarkers (d : CommandDescriptor) (slots : List (Option BindValue)) : Statement :=
  let (text, order) := numberSegments (referent? d slots) [] (segments d.text.toList)
  ⟨String.ofList text, order.filterMap fun i => slots[i]?.join⟩

/-! ### Procedures and tables -/

/-- The name of an object, if the text is one. -/
def objectName (text : String) : Except DescriptorError String :=
  if isObjectName text.toList then .ok text else .error (.malformed (.invalidObjectName text))

/-- The names and values of the arguments of a procedure. A slot that is not filled has neither; the
name of a filled one has to be such as can be written without quotes. -/
def arguments : List (ParameterDescriptor × Option BindValue) →
    Except DescriptorError (List (String × BindValue))
  | [] => .ok []
  | (_, none) :: rest => arguments rest
  | (p, some v) :: rest =>
    let name := stripMarkers p.name
    if isArgumentName name.toList then do return (name, v) :: (← arguments rest)
    else .error (.malformed (.invalidArgumentName p.name))

/-- The arguments as they stand in a statement, the first with the given number. -/
def argumentTexts : Nat → List String → List String
  | _, [] => []
  | n, name :: rest =>
    (name ++ " => " ++ String.ofList (placeholder n)) :: argumentTexts (n + 1) rest

/-- **The statement that calls a procedure:** its name as it is declared, and the arguments by name
with the numbers of their values. -/
def callProcedure (d : CommandDescriptor) (slots : List (Option BindValue)) :
    Except DescriptorError Statement := do
  let name ← objectName d.text
  let args ← arguments (d.parameters.zip slots)
  let list := join ", " (argumentTexts 1 (args.map (·.1)))
  return ⟨"SELECT * FROM " ++ name ++ "(" ++ list ++ ")", args.map (·.2)⟩

/-- **The statement that reads a table.** -/
def readTable (d : CommandDescriptor) : Except DescriptorError Statement := do
  let name ← objectName d.text
  return ⟨"SELECT * FROM " ++ name, []⟩

end Sql

/-- **The statement of a bound command.** Values are asked for first, so a request that lacks one is
refused whatever the text is; then the kind decides what the text is taken for. -/
def BoundCommand.statement (b : BoundCommand) : Except GatewayError Statement :=
  match Sql.bindSlots b.slots with
  | .error fault => .error (.badRequest fault)
  | .ok slots =>
    match b.descriptor.kind with
    | .text => .ok (Sql.numberMarkers b.descriptor slots)
    | .storedProcedure => (Sql.callProcedure b.descriptor slots).mapError .descriptor
    | .tableDirect => (Sql.readTable b.descriptor).mapError .descriptor

end QueryGateway
