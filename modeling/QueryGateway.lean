import QueryGateway.Artifact.Media
import QueryGateway.Artifact.Resolution
import QueryGateway.Calendar.Date
import QueryGateway.Calendar.Pattern
import QueryGateway.Calendar.Printer
import QueryGateway.Calendar.Time
import QueryGateway.Catalog
import QueryGateway.Command.Binding
import QueryGateway.Command.Descriptor
import QueryGateway.Command.Document
import QueryGateway.Command.Values
import QueryGateway.Error
import QueryGateway.Execution.Cache
import QueryGateway.Execution.Command
import QueryGateway.Execution.Runner
import QueryGateway.Execution.Serving
import QueryGateway.Files.Path
import QueryGateway.Files.Tree
import QueryGateway.Http.Percent
import QueryGateway.Http.Request
import QueryGateway.Http.RequestTarget
import QueryGateway.Http.Response
import QueryGateway.Http.Routes
import QueryGateway.Json.Evaluation
import QueryGateway.Json.Syntax
import QueryGateway.Json.Value
import QueryGateway.Number.Binary
import QueryGateway.Number.Decimal
import QueryGateway.Number.Shortest
import QueryGateway.Postgres.Cell
import QueryGateway.Postgres.Connection
import QueryGateway.Postgres.Numeric
import QueryGateway.Postgres.Server
import QueryGateway.Postgres.Wire
import QueryGateway.Proofs.Command.Binding
import QueryGateway.Proofs.Command.Compilation
import QueryGateway.Proofs.Command.Values
import QueryGateway.Proofs.Sql.Independence
import QueryGateway.Proofs.Sql.Pieces
import QueryGateway.Proofs.Sql.References
import QueryGateway.Proofs.Sql.Slots
import QueryGateway.Proofs.Text.LowerCase
import QueryGateway.Settings.Basic
import QueryGateway.Settings.Reader
import QueryGateway.Settings.Source
import QueryGateway.Sql.Marker
import QueryGateway.Sql.ObjectName
import QueryGateway.Sql.Statement
import QueryGateway.Tenant
import QueryGateway.Text.Blank
import QueryGateway.Text.CaseData
import QueryGateway.Text.Digits
import QueryGateway.Text.LowerCase
import QueryGateway.Text.Split
import QueryGateway.Text.Utf8
import QueryGateway.Uuid
import QueryGateway.Value.Coercion
import QueryGateway.Value.Raw
import QueryGateway.Value.Target
import QueryGateway.Xml.Chars
import QueryGateway.Xml.Content
import QueryGateway.Xml.Namespaces
import QueryGateway.Xml.Node
import QueryGateway.Xml.Reader
import QueryGateway.Proofs.Sql.Numbering
import QueryGateway.Proofs.Sql.Lexemes
import QueryGateway.Proofs.Sql.Agreement
import QueryGateway.Proofs.Sql.Quoted
import QueryGateway.Proofs.Catalog.Courses
import QueryGateway.Proofs.Catalog.Mapping
import QueryGateway.Proofs.Http.Courses
import QueryGateway.Proofs.Artifact.Resolution
import QueryGateway.Proofs.Http.Sources
import QueryGateway.Proofs.Http.CatalogAccess
import QueryGateway.Proofs.Command.Locality
import QueryGateway.Proofs.Http.OwnServer
import QueryGateway.Proofs.Execution.Entries
import QueryGateway.Proofs.Execution.Interleaving
import QueryGateway.Proofs.Execution.Alike
import QueryGateway.Proofs.Http.StaticFiles
import QueryGateway.Proofs.Http.TenantFiles
import QueryGateway.Proofs.Execution.Steadiness
import QueryGateway.Proofs.Http.History
import QueryGateway.Proofs.Text.Blank
import QueryGateway.Proofs.Settings.Validation
import QueryGateway.Proofs.Settings.Registry
import QueryGateway.Proofs.Settings.Contexts
import QueryGateway.Proofs.Artifact.InRoot
import QueryGateway.Proofs.Text.Split
import QueryGateway.Proofs.Catalog.Search
import QueryGateway.Proofs.Http.Outcomes
import QueryGateway.Proofs.Postgres.Columns
import QueryGateway.Proofs.Json.Grammar
import QueryGateway.Proofs.Json.Numerals
import QueryGateway.Proofs.Json.Keeping
import QueryGateway.Proofs.Postgres.JsonColumns
import QueryGateway.Proofs.First
import QueryGateway.Proofs.Sql.ObjectNames
import QueryGateway.Proofs.Sql.Refusals
import QueryGateway.Proofs.Sql.Templates
import QueryGateway.Proofs.Catalog.Detail
import QueryGateway.Proofs.Sql.Comments
import QueryGateway.Proofs.Uuid
import QueryGateway.Proofs.Value.Modes
import QueryGateway.Proofs.Value.Integers
import QueryGateway.Proofs.Calendar.Forms
import QueryGateway.Proofs.Calendar.Items
import QueryGateway.Proofs.Calendar.Reading
import QueryGateway.Proofs.Value.DateTimes
import QueryGateway.Proofs.Value.RoundTrip
import QueryGateway.Proofs.Command.History
import QueryGateway.Proofs.Http.Context
import QueryGateway.Proofs.Settings.Aliases
import QueryGateway.Proofs.Command.Documents
import QueryGateway.Proofs.Calendar.Days
import QueryGateway.Proofs.Postgres.Integers
import QueryGateway.Proofs.Postgres.Groups
import QueryGateway.Proofs.Postgres.Formats
import QueryGateway.Proofs.Postgres.Parameters
import QueryGateway.Proofs.Sql.Spans
import QueryGateway.Proofs.Sql.Scanning
