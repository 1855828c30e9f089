import QueryGateway.Artifact.Media
import QueryGateway.Files.Tree
import QueryGateway.Tenant

/-!
# Resolution

Which file answers a request for an endpoint. With a tenant a command descriptor comes first, then
the tenant's own static file; without one only the general static file is served. The name of the
endpoint is part of the name of the file, so a name that could lead elsewhere resolves to nothing.
-/

namespace QueryGateway

/-- **What answers a request.** A descriptor needs a tenant to run for, so it carries one; a file is
served as it stands, whoever asks. -/
inductive Artifact where
  /-- The results of the command in a descriptor, run for a tenant. -/
  | templated (descriptor : FilePath) (tenant : Tenant)
  /-- The content of a file. -/
  | static (path : FilePath)
  | nothing
deriving DecidableEq

/-- What answers a request, and as what it is served. -/
structure Resolution where
  media : MediaType
  artifact : Artifact
deriving DecidableEq

/-- Whether two points stand side by side. -/
def hasDoublePoint : List Char → Bool
  | [] => false
  | '.' :: '.' :: _ => true
  | _ :: cs => hasDoublePoint cs

/-- **Safe endpoints:** names that can stand in a file name without leading elsewhere. -/
def isSafeEndpoint (endpoint : String) : Bool :=
  let cs := endpoint.toList
  !cs.isEmpty && cs.head? != some '.' && !cs.contains '/' && !cs.contains '\\' &&
    !hasDoublePoint cs

/-- The name of the file with a command descriptor. -/
def descriptorName (endpoint : String) (media : MediaType) : String :=
  endpoint ++ "." ++ media.extension ++ "ds"

/-- The name of the static file, of a tenant or for everyone. -/
def staticName (endpoint : String) (media : MediaType) : Option Tenant → String
  | some t => endpoint ++ ".[" ++ t.key ++ "]." ++ media.extension
  | none => endpoint ++ "." ++ media.extension

/-- The static file of an endpoint, if there is one. Which name is looked for depends on the tenant:
with one it is the file with the tenant's key in brackets, without one the plain file. -/
def staticArtifact (files : FileTree) (tenant : Option Tenant) (endpoint : String)
    (media : MediaType) : Artifact :=
  match files.find? (staticName endpoint media tenant) with
  | some path => .static path
  | none => .nothing

/-- What answers a request for an endpoint in a media type. A tenant's request tries the descriptor
first and the static file second; a request without a tenant has no connection to run a descriptor
on, so it is left with the static file. An endpoint that is no safe name is not looked up at all. -/
def resolveArtifact (files : FileTree) (tenant : Option Tenant) (endpoint : String)
    (media : MediaType) : Artifact :=
  if isSafeEndpoint endpoint then
    match tenant with
    | some t =>
      match files.find? (descriptorName endpoint media) with
      | some path => .templated path t
      | none => staticArtifact files tenant endpoint media
    | none => staticArtifact files tenant endpoint media
  else .nothing

/-- **Resolving an endpoint.** -/
def resolve (files : FileTree) (tenant : Option Tenant) (endpoint : String)
    (accepted : AcceptedMedia) : Resolution :=
  ⟨accepted.preferred, resolveArtifact files tenant endpoint accepted.preferred⟩

end QueryGateway
