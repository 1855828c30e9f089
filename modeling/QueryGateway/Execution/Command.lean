import QueryGateway.Artifact.Resolution
import QueryGateway.Execution.Serving

/-!
# Executing commands

From a resolved artifact to the text of a response. A templated query needs a connection string
before its descriptor is even read; then the descriptor is loaded, the values are bound, the
statement is built and run, and the texts of the first column are joined. A static file is read.
-/

namespace QueryGateway

/-- Where the statements of a tenant run. -/
def connectionTarget (t : Tenant) : Serving ConnectionTarget := do
  let site ← Serving.site
  let connectionString ← Serving.lift (site.registry.connectionString t)
  return { connectionString }

/-- **Preparing a command:** its descriptor with values bound to it, as a statement. -/
def prepare (path : FilePath) (values : ParameterValues) : Serving PreparedCommand := do
  let d ← Serving.loadDescriptor path
  let statement ← Serving.lift (d.bind values).statement
  return ⟨statement, d.timeoutSeconds⟩

/-- **Running a command** for the text of its result. The texts of the first column are put together
without anything between them, so a document may come in several rows. -/
def runText (target : ConnectionTarget) (path : FilePath) (values : ParameterValues) :
    Serving String := do
  let command ← prepare path values
  let parts ← Serving.fetchFirstColumn target command ⟨path, values⟩
  return String.join parts

/-- **The text of an artifact.** Nothing has the empty text. A descriptor asks the runner, and the
other two are answered without it. -/
def Artifact.text (a : Artifact) (values : ParameterValues) : Serving String :=
  match a with
  | .templated descriptor tenant => do
    let target ← connectionTarget tenant
    runText target descriptor values
  | .static path => do
    let site ← Serving.site
    Serving.lift ((site.files.readText path).mapError .file)
  | .nothing => pure ""

end QueryGateway
