import QueryGateway.Text.Split

/-!
# Request targets

What a request asks for: a path and a query. The target may be a path alone, a whole address, the
bare name of a server or a star; a fragment is no part of it.
-/

namespace QueryGateway.Http

open Text

/-- **The target of a request.** Neither part is decoded yet: the path is compared with the routes
as it is written, and the query is decoded pair by pair. -/
structure RequestTarget where
  /-- The path, as it is written. -/
  path : String
  /-- What stands after the question mark; empty if there is none. -/
  query : String
deriving DecidableEq

namespace RequestTarget

/-- The characters of a path and a query. -/
def ofPath (cs : List Char) : RequestTarget :=
  let (path, query) := cutAt '?' cs
  ⟨String.ofList path, String.ofList (query.getD [])⟩

/-- Whether the character may stand in the name of a scheme. -/
def isSchemeChar (c : Char) : Bool :=
  c.isAlphanum || c = '+' || c = '-' || c = '.'

/-- What stands behind the scheme of a whole address. -/
def afterScheme? (cs : List Char) : Option (List Char) :=
  match cs.takeWhile isSchemeChar, cs.dropWhile isSchemeChar with
  | _ :: _, ':' :: '/' :: '/' :: rest => some rest
  | _, _ => none

/-- **Reading a target.** A whole address without a path asks for the root, and the bare name of a
server for nothing. -/
def parse (s : String) : RequestTarget :=
  let cs := s.toList.takeWhile (· != '#')
  if cs.head? = some '/' || cs = ['*'] then ofPath cs
  else
    match afterScheme? cs with
    | some rest =>
      let target := ofPath (rest.dropWhile fun c => c != '/' && c != '?')
      { target with path := if target.path.isEmpty then "/" else target.path }
    | none => ⟨"", ""⟩

end RequestTarget

end QueryGateway.Http
