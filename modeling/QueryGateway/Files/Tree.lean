import QueryGateway.Error
import QueryGateway.Files.Path
import QueryGateway.Text.Utf8

/-!
# Files

The files of the data sources as a value: a file system with the root of the data sources in it. It
says for every list of names what stands there: a file, a directory or nothing. The names go from
the top, and not from the root, because a step to the parent leads out of the root as it leads out
of any other directory; what is above the root and beside it can be named, and a path that has left
the root may come back by the root's own name. There are no links.

Paths are walked part by part from the root, and every part but the last has to be a directory.
-/

namespace QueryGateway

/-- What stands at a place of a file system. -/
inductive FileEntry where
  | file (content : Octets)
  | directory
deriving DecidableEq

/-- **A file system,** and the root of the data sources, which is where paths start. Nothing is
taken for granted about the root: there may be no directory at its place. -/
structure FileTree where
  /-- What stands at a place. The names go from the top, which is the empty list. -/
  entry? : List String → Option FileEntry
  /-- The place of the root. -/
  root : List String
  /-- The octets that the path of the root takes with the slash behind it. They count when a path is
  too long to be looked up, and need not be those of the names, because the root may have been given
  another way. -/
  rootSize : Nat

namespace FileTree

/-! ### Building file systems -/

/-- The file system of an empty root at a place. The root has been given by its names, and only the
directories on the way to it are there. -/
def emptyAt (root : List String) : FileTree where
  entry? place := if place.isPrefixOf root then some .directory else none
  root := root
  rootSize := root.foldl (fun size name => size + (name.utf8ByteSize + 1)) 1

/-- The file system of an empty root. -/
def empty : FileTree := emptyAt ["srv", "sources"]

/-- The file system with an entry at a place. -/
def set (t : FileTree) (place : List String) (e : FileEntry) : FileTree :=
  { t with entry? := fun other => if other = place then some e else t.entry? other }

/-- The place that a part leads to from a place, which is held in reverse. The parent of the top is
the top. -/
def step (here : List String) : PathPart → List String
  | .name s => s :: here
  | .parent => here.tail

/-- The file system with a directory at a place, which is held in reverse, and at all places on the
way from there. -/
def makeWay (t : FileTree) (here : List String) : List PathPart → FileTree
  | [] => t.set here.reverse .directory
  | part :: rest => (t.set here.reverse .directory).makeWay (step here part) rest

/-- The place that parts lead to from the root. -/
def place (root : List String) (parts : List PathPart) : List String :=
  (parts.foldl step root.reverse).reverse

/-- **Writing:** the file system with a file where a path leads, in directories all the way, or with
a directory there if the path can only name one. -/
def write (t : FileTree) (p : FilePath) (content : Octets) : FileTree :=
  if p.mustBeDirectory then t.makeWay t.root.reverse p.parts
  else (t.makeWay t.root.reverse p.parts.dropLast).set (place t.root p.parts) (.file content)

/-- The file system without what stands where a path leads and below. -/
def remove (t : FileTree) (p : FilePath) : FileTree :=
  { t with
    entry? := fun other =>
      if (place t.root p.parts).isPrefixOf other then none else t.entry? other }

/-! ### Walking -/

/-- The most octets that a name takes. -/
def longestName : Nat := 255

/-- The most octets that a path takes together with that of the root. -/
def longestPath : Nat := 4095

/-- Why no file can have a name, if so. -/
def nameError? (name : String) : Option FileError :=
  if longestName < name.utf8ByteSize then some .nameTooLong else none

/-- What parts lead to from a place, which is held in reverse. A step to the parent asks for a
directory no less than a name does: it is looked up in the directory that it leaves. -/
def walk (t : FileTree) : List String → List PathPart → Except FileError FileEntry
  | here, [] =>
    match t.entry? here.reverse with
    | some e => .ok e
    | none => .error .notFound
  | here, part :: rest =>
    match t.entry? here.reverse with
    | none => .error .notFound
    | some (.file _) => .error .notDirectory
    | some .directory =>
      match part with
      | .parent => walk t (step here .parent) rest
      | .name s =>
        match nameError? s with
        | some e => .error e
        | none => walk t (step here (.name s)) rest

/-- **What a path leads to.** A part that no name can hold, and a path that is too long, are refused
before the walk begins; a path that asks for a directory is refused a file after it. -/
def lookup (t : FileTree) (p : FilePath) : Except FileError FileEntry :=
  if p.parts.any fun part => '\x00' ∈ (FilePath.partText part).toList then .error .invalidName
  else if longestPath < t.rootSize + p.size then .error .nameTooLong
  else
    match t.walk t.root.reverse p.parts with
    | .ok (.file content) =>
      if p.mustBeDirectory then .error .notDirectory else .ok (.file content)
    | other => other

/-- Whether a path leads to a file. -/
def isFile (t : FileTree) (p : FilePath) : Bool :=
  match t.lookup p with
  | .ok (.file _) => true
  | _ => false

/-- Whether the root exists. -/
def hasRoot (t : FileTree) : Bool :=
  t.entry? t.root = some .directory

/-- The octets of the file that a path leads to. A directory is an entry like any other, but has no
octets to read. -/
def read (t : FileTree) (p : FilePath) : Except FileError Octets :=
  match t.lookup p with
  | .ok (.file content) => .ok content
  | .ok .directory => .error .isDirectory
  | .error e => .error e

/-- **The text of the file** that a path leads to. A content that is no well-formed text is an
error, as it is for the program. -/
def readText (t : FileTree) (p : FilePath) : Except FileError String :=
  match t.read p with
  | .error e => .error e
  | .ok content =>
    match Text.Utf8.decode? content with
    | some s => .ok s
    | none => .error .notText

/-- **Finding a file by name:** its path, if the name leads to a file from the root. Whether the
file is below the root is not asked. -/
def find? (t : FileTree) (name : String) : Option FilePath :=
  (FilePath.ofText? name).filter t.isFile

end FileTree

end QueryGateway
