import QueryGateway.Command.Document
import QueryGateway.Files.Tree

/-!
# The descriptor cache

Compiled descriptors by the paths of their files. An entry is never replaced and never removed, so
all who load a path share one descriptor from the first load on. A cache that is not enabled keeps
nothing, and every load reads the file again.

Loading takes three steps: `lookup?`, then reading and compiling the file, then `keep`, which keeps
the entry that is there if another load was faster. A compiled descriptor gets a serial number, by
which two loads can tell whether they share it.
-/

namespace QueryGateway

/-- **A descriptor that is shared** by those who loaded it. The number says which compilation made
it, so that two descriptors that are equal by chance are told apart. -/
structure SharedDescriptor where
  /-- The number of the compilation that it comes from. -/
  serial : Nat
  /-- The descriptor. -/
  descriptor : CommandDescriptor
deriving DecidableEq

/-- **The compiled descriptors** that are kept. They are kept in the order in which they came, and a
path has one of them at most. -/
structure DescriptorCache where
  /-- Whether any are kept. -/
  isEnabled : Bool
  /-- Paths and their descriptors. -/
  entries : List (List PathPart × SharedDescriptor) := []
  /-- The number of compilations so far. -/
  compilations : Nat := 0
deriving DecidableEq

/-- Reading and compiling the file that a path leads to. -/
def compileFile (files : FileTree) (path : FilePath) : Except GatewayError CommandDescriptor :=
  match files.readText path with
  | .error e => .error (.file e)
  | .ok source => (CommandDescriptor.compile source).mapError .descriptor

namespace DescriptorCache

/-- The descriptor that is kept for a path. Paths of equal parts are one. -/
def lookup? (c : DescriptorCache) (path : FilePath) : Option SharedDescriptor :=
  if c.isEnabled then (c.entries.find? (·.1 = path.parts)).map (·.2) else none

/-- The shared form of a descriptor that has just been compiled. -/
def share (c : DescriptorCache) (d : CommandDescriptor) : SharedDescriptor × DescriptorCache :=
  (⟨c.compilations, d⟩, { c with compilations := c.compilations + 1 })

/-- The descriptor for a path after one has been compiled for it: the one that is kept already, or
else the new one, which is kept from now on. -/
def keep (c : DescriptorCache) (path : FilePath) (d : SharedDescriptor) :
    SharedDescriptor × DescriptorCache :=
  if c.isEnabled then
    match c.lookup? path with
    | some kept => (kept, c)
    | none => (d, { c with entries := c.entries ++ [(path.parts, d)] })
  else (d, c)

/-- **Loading a descriptor.** A path that is kept is not read again, whatever its file says by now;
one that is not is read, compiled and kept. What fails is kept nowhere and is read again at the next
time. -/
def load (c : DescriptorCache) (files : FileTree) (path : FilePath) :
    Except GatewayError SharedDescriptor × DescriptorCache :=
  match c.lookup? path with
  | some kept => (.ok kept, c)
  | none =>
    match compileFile files path with
    | .error e => (.error e, c)
    | .ok d =>
      let (shared, c) := c.share d
      let (shared, c) := c.keep path shared
      (.ok shared, c)

end DescriptorCache

end QueryGateway
