import QueryGateway.Command.Descriptor
import QueryGateway.Value.Raw

/-!
# Supplied values

The values that a request supplies for parameters: an ordered map from keys. A name is taken to its
key on every access, so names that differ in markers or case are one.
-/

namespace QueryGateway

open Text

/-- **The values supplied,** in the order in which their keys came first. -/
structure ParameterValues where
  /-- Keys and values. -/
  entries : List (String × RawValue)
deriving DecidableEq

namespace ParameterValues

/-- No values. -/
def empty : ParameterValues := ⟨[]⟩

/-- The entries with a value under a key: in place of the one that is there, or at the end. -/
def put (key : String) (value : RawValue) : List (String × RawValue) → List (String × RawValue)
  | [] => [(key, value)]
  | entry :: rest =>
    if entry.1 = key then (key, value) :: rest else entry :: put key value rest

/-- Supplies a value under a name. -/
def insert (vs : ParameterValues) (name : String) (value : RawValue) : ParameterValues :=
  ⟨put (parameterKey name) value vs.entries⟩

/-- The value supplied under a name. -/
def get? (vs : ParameterValues) (name : String) : Option RawValue :=
  (vs.entries.find? (·.1 = parameterKey name)).map (·.2)

/-- The values without the one supplied under a name. -/
def erase (vs : ParameterValues) (name : String) : ParameterValues :=
  ⟨vs.entries.filter (·.1 ≠ parameterKey name)⟩

/-- The values of pairs inserted one after the other. -/
def ofList (pairs : List (String × RawValue)) : ParameterValues :=
  pairs.foldl (fun vs pair => vs.insert pair.1 pair.2) empty

/-- Supplies a text unless it is blank or its name has a value already. -/
def offer (vs : ParameterValues) (pair : String × String) : ParameterValues :=
  if isAllBlank pair.2 || (vs.get? pair.1).isSome then vs else vs.insert pair.1 (.text pair.2)

/-- **The values of the pairs of a query:** of each key the first that is not blank. -/
def ofQueryPairs (pairs : List (String × String)) : ParameterValues :=
  pairs.foldl offer empty

end ParameterValues

end QueryGateway
