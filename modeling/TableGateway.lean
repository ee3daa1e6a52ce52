import TableGateway.Calendar.Date
import TableGateway.Calendar.Printer
import TableGateway.Calendar.Reader
import TableGateway.Cell
import TableGateway.Config
import TableGateway.Convert.Binding
import TableGateway.Convert.Reading
import TableGateway.Denylist
import TableGateway.Entries
import TableGateway.Expansion
import TableGateway.Fault
import TableGateway.Filter.Conditions
import TableGateway.Filter.Operator
import TableGateway.Gateway.Answer
import TableGateway.Gateway.Basic
import TableGateway.Gateway.Operation
import TableGateway.Gateway.Read
import TableGateway.Gateway.Write
import TableGateway.Http.Endpoint
import TableGateway.Http.Handler
import TableGateway.Http.MediaType
import TableGateway.Http.Message
import TableGateway.Json.Basic
import TableGateway.Json.Printer
import TableGateway.Json.Reader
import TableGateway.Literal.Array
import TableGateway.Literal.Composite
import TableGateway.Main
import TableGateway.Naming
import TableGateway.Network
import TableGateway.Number.Decimal
import TableGateway.Number.Double
import TableGateway.Number.Integer
import TableGateway.Proofs.Address
import TableGateway.Proofs.Admission
import TableGateway.Proofs.Agreement
import TableGateway.Proofs.ArrayBalance
import TableGateway.Proofs.ArrayGrammar
import TableGateway.Proofs.ArrayLiteral
import TableGateway.Proofs.ArrayReading
import TableGateway.Proofs.ArrayTags
import TableGateway.Proofs.Attachment
import TableGateway.Proofs.Authorization
import TableGateway.Proofs.Batching
import TableGateway.Proofs.Binding
import TableGateway.Proofs.CalendarText
import TableGateway.Proofs.Classification
import TableGateway.Proofs.ComplexityBound
import TableGateway.Proofs.CompositeRoundTrip
import TableGateway.Proofs.Conversion
import TableGateway.Proofs.CursorAcceptance
import TableGateway.Proofs.CursorParams
import TableGateway.Proofs.Denial
import TableGateway.Proofs.Denylist
import TableGateway.Proofs.DocumentRoundTrip
import TableGateway.Proofs.Encoding
import TableGateway.Proofs.Estimate
import TableGateway.Proofs.Evaluation
import TableGateway.Proofs.Expressions
import TableGateway.Proofs.FilterComposition
import TableGateway.Proofs.FilterCost
import TableGateway.Proofs.Filters
import TableGateway.Proofs.Freshness
import TableGateway.Proofs.Generations
import TableGateway.Proofs.Injection
import TableGateway.Proofs.Insertions
import TableGateway.Proofs.Join
import TableGateway.Proofs.JoinText
import TableGateway.Proofs.JsonText
import TableGateway.Proofs.KeyScope
import TableGateway.Proofs.KeyText
import TableGateway.Proofs.Leaf
import TableGateway.Proofs.LikeMatching
import TableGateway.Proofs.LiteralRoundTrip
import TableGateway.Proofs.Locality
import TableGateway.Proofs.Meaning
import TableGateway.Proofs.NameOrder
import TableGateway.Proofs.Naming
import TableGateway.Proofs.Outcome
import TableGateway.Proofs.PageBounds
import TableGateway.Proofs.ParamOrder
import TableGateway.Proofs.Parentheses
import TableGateway.Proofs.Placement
import TableGateway.Proofs.Projection
import TableGateway.Proofs.Provenance
import TableGateway.Proofs.Ranking
import TableGateway.Proofs.ReadBack
import TableGateway.Proofs.Refusal
import TableGateway.Proofs.Rejection
import TableGateway.Proofs.RelationFilters
import TableGateway.Proofs.RelationLookup
import TableGateway.Proofs.Reread
import TableGateway.Proofs.ReverseLookup
import TableGateway.Proofs.Scan
import TableGateway.Proofs.SelectShape
import TableGateway.Proofs.SelectText
import TableGateway.Proofs.SelectToken
import TableGateway.Proofs.Settling
import TableGateway.Proofs.Spelling
import TableGateway.Proofs.Splitting
import TableGateway.Proofs.Steadiness
import TableGateway.Proofs.Submission
import TableGateway.Proofs.TemporalRoundTrip
import TableGateway.Proofs.TomlRange
import TableGateway.Proofs.Trace
import TableGateway.Proofs.Traversal
import TableGateway.Proofs.Trimming
import TableGateway.Proofs.Upserts
import TableGateway.Proofs.Walk
import TableGateway.Proofs.Window
import TableGateway.Query.Complexity
import TableGateway.Query.Page
import TableGateway.Query.Params
import TableGateway.Query.Select
import TableGateway.Recorder
import TableGateway.Relationship
import TableGateway.Schema.Cache
import TableGateway.Schema.ColumnType
import TableGateway.Schema.Description
import TableGateway.Schema.Source
import TableGateway.Schema.Table
import TableGateway.Session
import TableGateway.Statement.Basic
import TableGateway.Statement.Build
import TableGateway.Statement.Condition
import TableGateway.Statement.Key
import TableGateway.Statement.Order
import TableGateway.Text.Base64
import TableGateway.Text.Blank
import TableGateway.Text.Cut
import TableGateway.Text.Form
import TableGateway.Text.Hex
import TableGateway.Text.Utf8
import TableGateway.Text.Word
import TableGateway.Toml.File
import TableGateway.Toml.Reader
import TableGateway.Toml.Scalar
import TableGateway.Uuid
import TableGateway.Violation
