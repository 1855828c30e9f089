import QueryGateway.Text.Split

/-!
# Paths

Paths from the root of the data sources: names and steps back to the parent, one after the other.
They need not stay below the root. Empty parts and single points between slashes say nothing and are
dropped, so texts that differ may have the same parts. A path that ends in a slash or a point can
only name a directory. What was dropped still counts when a path is too long to be looked up.
-/

namespace QueryGateway

/-- A part of a path. -/
inductive PathPart where
  | name (s : String)
  /-- A step back to the directory that holds the present one. -/
  | parent
deriving DecidableEq

/-- **A path from the root,** part by part. The parts say where it leads, and the rest what the file
system would say of it: a slash at the end asks for a directory, and the number of octets counts
against the longest path. -/
structure FilePath where
  /-- The parts. -/
  parts : List PathPart
  /-- Whether the path can only name a directory. -/
  mustBeDirectory : Bool := false
  /-- The number of octets that the path was written with. -/
  size : Nat := 0
deriving DecidableEq

namespace FilePath

/-- The part that stands between two slashes, if it says anything. -/
def part? (s : String) : Option PathPart :=
  if s = "" || s = "." then none
  else if s = ".." then some .parent
  else some (.name s)

/-- **The path of a text,** unless it begins with a slash and so does not start from the root. No
name that is made here begins so: each has an endpoint or a fixed word in front. -/
def ofText? (s : String) : Option FilePath :=
  let pieces := Text.split '/' s
  if 2 ≤ pieces.length && pieces.head? = some "" then none
  else
    some {
      parts := pieces.filterMap part?
      mustBeDirectory := pieces.getLast? = some "" || pieces.getLast? = some "."
      size := s.utf8ByteSize }

/-- The text of a part. -/
def partText : PathPart → String
  | .name s => s
  | .parent => ".."

/-- The text of a path, with single slashes between its parts. -/
def text (p : FilePath) : String :=
  Text.join "/" (p.parts.map partText)

end FilePath

end QueryGateway
