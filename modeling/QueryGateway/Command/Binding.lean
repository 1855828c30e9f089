import QueryGateway.Command.Values
import QueryGateway.Value.Coercion

/-!
# Binding

Binding supplied values to the parameters of a command. Every parameter starts from its initial
value and takes the supplied one if it converts; what matches no parameter is ignored.
-/

namespace QueryGateway

/-- **A command with a value for each of its parameters,** in declared order. -/
structure BoundCommand where
  /-- The command. -/
  descriptor : CommandDescriptor
  /-- What the parameters hold. -/
  values : List BoundValue
deriving DecidableEq

/-- What a parameter holds after a value is supplied for it. A null is taken by a parameter that may
be null; any other value is taken if it converts. -/
def ParameterDescriptor.accept (p : ParameterDescriptor) (raw : RawValue) (held : BoundValue) :
    BoundValue :=
  if raw.isNull then
    if p.isNullable then .null else held
  else
    match p.target.coerce raw held.value? with
    | some v => .value v
    | none => held

/-- What the parameters of a command hold after one entry is supplied. An entry whose key is that of
no parameter is passed over, so a request may carry more than the command declares. -/
def CommandDescriptor.supply (d : CommandDescriptor) (held : List BoundValue)
    (entry : String × RawValue) : List BoundValue :=
  match d.position? entry.1 with
  | none => held
  | some i =>
    match d.parameters[i]? with
    | some p => held.modify i (p.accept entry.2)
    | none => held

/-- **Binding values to a command.** -/
def CommandDescriptor.bind (d : CommandDescriptor) (vs : ParameterValues) : BoundCommand :=
  ⟨d, vs.entries.foldl d.supply (d.parameters.map (·.initialValue))⟩

namespace BoundCommand

/-- What the parameter with the key of a name holds. -/
def value? (b : BoundCommand) (name : String) : Option BoundValue :=
  (b.descriptor.position? name).bind fun i => b.values[i]?

/-- The parameters with what they hold. -/
def slots (b : BoundCommand) : List (ParameterDescriptor × BoundValue) :=
  b.descriptor.parameters.zip b.values

end BoundCommand

end QueryGateway
