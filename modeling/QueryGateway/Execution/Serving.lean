import QueryGateway.Execution.Cache
import QueryGateway.Execution.Runner
import QueryGateway.Tenant

/-!
# Serving

What it takes to serve a request: a site, which stands still while the request is served, and
progress, which grows. The progress outlives an error, so calls that were made stay listed and
descriptors that were compiled stay kept.
-/

namespace QueryGateway

/-- **What a request is served from.** Nothing in it changes while requests are served; what does
change is the progress. -/
structure Site where
  /-- The tenants. -/
  registry : TenantRegistry
  /-- The files of the data sources. -/
  files : FileTree
  /-- What runs statements. -/
  runner : Runner

/-- **What has happened so far.** The cache carries over to the requests that come after, and the
calls are what has been asked of the runner. -/
structure Progress where
  /-- The compiled descriptors that are kept. -/
  cache : DescriptorCache
  /-- The questions to the runner, in order. -/
  calls : List Call := []

/-- **Serving:** an answer or an error, and further progress. -/
def Serving (α : Type) : Type :=
  Site → Progress → Except GatewayError α × Progress

namespace Serving

/-- An answer without any progress. -/
def pure {α : Type} (a : α) : Serving α :=
  fun _ p => (.ok a, p)

/-- Going on with an answer. An error stays, together with all that was kept and asked before it
arose. -/
def bind {α β : Type} (x : Serving α) (f : α → Serving β) : Serving β :=
  fun site p =>
    match x site p with
    | (.ok a, p) => f a site p
    | (.error e, p) => (.error e, p)

instance : Monad Serving where
  pure := Serving.pure
  bind := Serving.bind

/-- An answer or an error that is known already. -/
def lift {α : Type} (r : Except GatewayError α) : Serving α :=
  fun _ p => (r, p)

/-- An error. -/
def fail {α : Type} (e : GatewayError) : Serving α :=
  lift (.error e)

/-- The site. -/
def site : Serving Site :=
  fun s p => (.ok s, p)

/-- **Loading a descriptor** through the cache. -/
def loadDescriptor (path : FilePath) : Serving CommandDescriptor :=
  fun s p =>
    let (r, cache) := p.cache.load s.files path
    (r.map (·.descriptor), { p with cache })

/-- The progress with one more question. -/
def Progress.ask (p : Progress) (c : Call) : Progress :=
  { p with calls := p.calls ++ [c] }

/-- **Asking for the first column** of the result of a command. The call is recorded whether or not
the runner answers it with an error. -/
def fetchFirstColumn (target : ConnectionTarget) (command : PreparedCommand)
    (source : CommandSource) : Serving (List String) :=
  fun s p =>
    (s.runner.firstColumn target command,
      Progress.ask p ⟨.firstColumn, target, command, source⟩)

/-- **Asking for the listing of databases.** -/
def fetchDatabases (target : ConnectionTarget) (command : PreparedCommand)
    (source : CommandSource) : Serving (List DatabaseInfo) :=
  fun s p =>
    (s.runner.databases target command, Progress.ask p ⟨.databases, target, command, source⟩)

end Serving

end QueryGateway
