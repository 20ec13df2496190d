import RelQuery.Alias
import RelQuery.CommandLine.Arguments
import RelQuery.CommandLine.Run
import RelQuery.Decimal.Shortest
import RelQuery.Decimal.Style
import RelQuery.Error
import RelQuery.Filter.Basic
import RelQuery.Filter.Json
import RelQuery.Filter.Pattern
import RelQuery.Filter.Predicate
import RelQuery.Hydrate
import RelQuery.Include.Basic
import RelQuery.Include.Json
import RelQuery.Json.Basic
import RelQuery.Json.Document
import RelQuery.Json.Printer
import RelQuery.Json.Reader
import RelQuery.Link
import RelQuery.Main
import RelQuery.Page
import RelQuery.Path
import RelQuery.Plan.Basic
import RelQuery.Plan.Resolve
import RelQuery.Proofs.Blog
import RelQuery.Proofs.Decimal.Floats
import RelQuery.Proofs.Decimal.Interval
import RelQuery.Proofs.Decimal.Neighbours
import RelQuery.Proofs.Filter.Blank
import RelQuery.Proofs.Filter.Emitted
import RelQuery.Proofs.Filter.Encoded
import RelQuery.Proofs.Filter.Lowering
import RelQuery.Proofs.Filter.Meaning
import RelQuery.Proofs.Filter.MissingOperator
import RelQuery.Proofs.Filter.Pattern
import RelQuery.Proofs.Filter.Readable
import RelQuery.Proofs.Filter.References
import RelQuery.Proofs.Filter.Valid
import RelQuery.Proofs.Hydrate.Blog
import RelQuery.Proofs.Hydrate.Depicted
import RelQuery.Proofs.Hydrate.FirstSeen
import RelQuery.Proofs.Hydrate.Flattened
import RelQuery.Proofs.Hydrate.Forms
import RelQuery.Proofs.Hydrate.Grouping
import RelQuery.Proofs.Hydrate.Keyed
import RelQuery.Proofs.Hydrate.Lineage
import RelQuery.Proofs.Hydrate.Nest
import RelQuery.Proofs.Hydrate.Objects
import RelQuery.Proofs.Hydrate.Repeated
import RelQuery.Proofs.Hydrate.RowKeys
import RelQuery.Proofs.Include.Encoded
import RelQuery.Proofs.Json.Alike
import RelQuery.Proofs.Json.Delimited
import RelQuery.Proofs.Json.Floats
import RelQuery.Proofs.Json.Injective
import RelQuery.Proofs.Json.Members
import RelQuery.Proofs.Json.Numbers
import RelQuery.Proofs.Json.ReadBack
import RelQuery.Proofs.Json.Strings
import RelQuery.Proofs.Keyed
import RelQuery.Proofs.Link
import RelQuery.Proofs.Names
import RelQuery.Proofs.Plan.Attached
import RelQuery.Proofs.Plan.Blank
import RelQuery.Proofs.Plan.Columns
import RelQuery.Proofs.Plan.Coverage
import RelQuery.Proofs.Plan.Deferral
import RelQuery.Proofs.Plan.Depicts
import RelQuery.Proofs.Plan.DepthFirst
import RelQuery.Proofs.Plan.Follow
import RelQuery.Proofs.Plan.Mirrors
import RelQuery.Proofs.Plan.Occurrences
import RelQuery.Proofs.Plan.ToOne
import RelQuery.Proofs.Reservations
import RelQuery.Proofs.Scalars
import RelQuery.Proofs.Schema.Keys
import RelQuery.Proofs.Schema.Validated
import RelQuery.Proofs.Select.Assembled
import RelQuery.Proofs.Select.BareNames
import RelQuery.Proofs.Select.Built
import RelQuery.Proofs.Select.Counted
import RelQuery.Proofs.Select.Eager
import RelQuery.Proofs.Select.Failures
import RelQuery.Proofs.Select.Limits
import RelQuery.Proofs.Select.Names
import RelQuery.Proofs.Select.Order
import RelQuery.Proofs.Select.OutputNames
import RelQuery.Proofs.Select.Page
import RelQuery.Proofs.Select.PageFaults
import RelQuery.Proofs.Select.Paging
import RelQuery.Proofs.Select.Pieces
import RelQuery.Proofs.Select.Readable
import RelQuery.Proofs.Select.References
import RelQuery.Proofs.Select.Reserved
import RelQuery.Proofs.Select.Retained
import RelQuery.Proofs.Select.Roots
import RelQuery.Proofs.Select.Shown
import RelQuery.Proofs.Select.Sound
import RelQuery.Proofs.Select.Supplied
import RelQuery.Proofs.Select.Values
import RelQuery.Proofs.Select.Verdicts
import RelQuery.Proofs.Session.Again
import RelQuery.Proofs.Session.Asked
import RelQuery.Proofs.Session.Batched
import RelQuery.Proofs.Session.Batches
import RelQuery.Proofs.Session.Deferral
import RelQuery.Proofs.Session.Fetched
import RelQuery.Proofs.Session.Fields
import RelQuery.Proofs.Session.Filled
import RelQuery.Proofs.Session.Gathered
import RelQuery.Proofs.Session.Groups
import RelQuery.Proofs.Session.InPlace
import RelQuery.Proofs.Session.Loaded
import RelQuery.Proofs.Session.Mapped
import RelQuery.Proofs.Session.Matched
import RelQuery.Proofs.Session.Recorded
import RelQuery.Proofs.Session.Requests
import RelQuery.Proofs.Session.Rounds
import RelQuery.Proofs.Session.Sites
import RelQuery.Proofs.Session.Statements
import RelQuery.Proofs.Session.Written
import RelQuery.Proofs.Session.Yields
import RelQuery.Proofs.Settings.Expansion
import RelQuery.Proofs.Sql.Answer
import RelQuery.Proofs.Sql.AsWritten
import RelQuery.Proofs.Sql.Blank
import RelQuery.Proofs.Sql.Bracketed
import RelQuery.Proofs.Sql.Conditions
import RelQuery.Proofs.Sql.Constructs
import RelQuery.Proofs.Sql.Counting
import RelQuery.Proofs.Sql.Database
import RelQuery.Proofs.Sql.DecodeExpr
import RelQuery.Proofs.Sql.DecodeList
import RelQuery.Proofs.Sql.DecodeQuery
import RelQuery.Proofs.Sql.Decoder
import RelQuery.Proofs.Sql.Joins
import RelQuery.Proofs.Sql.Levels
import RelQuery.Proofs.Sql.Occurrences
import RelQuery.Proofs.Sql.OneMeaning
import RelQuery.Proofs.Sql.PageClause
import RelQuery.Proofs.Sql.Parameters
import RelQuery.Proofs.Sql.Predicates
import RelQuery.Proofs.Sql.Quoted
import RelQuery.Proofs.Sql.ReadBack
import RelQuery.Proofs.Sql.ReadExpr
import RelQuery.Proofs.Sql.ReadMeaning
import RelQuery.Proofs.Sql.ReadQuery
import RelQuery.Proofs.Sql.Reader
import RelQuery.Proofs.Sql.References
import RelQuery.Proofs.Sql.Scalar
import RelQuery.Proofs.Sql.ScopeCheck
import RelQuery.Proofs.Sql.Semantics
import RelQuery.Proofs.Sql.Truth
import RelQuery.Proofs.Sql.Upsert
import RelQuery.Proofs.Tiling
import RelQuery.Schema.Registry
import RelQuery.Schema.Table
import RelQuery.Schema.Toml
import RelQuery.Select.Basic
import RelQuery.Select.Build
import RelQuery.Select.Request
import RelQuery.Session.Executor
import RelQuery.Session.Lazy
import RelQuery.Session.Run
import RelQuery.Settings.Basic
import RelQuery.Settings.Template
import RelQuery.Sql.Dialect
import RelQuery.Sql.Insert
import RelQuery.Sql.Literal
import RelQuery.Sql.Pagination
import RelQuery.Sql.Query
import RelQuery.Sql.Quoting
import RelQuery.Sql.Render
import RelQuery.Sql.Scope
import RelQuery.Sql.Token
import RelQuery.Sqlite
import RelQuery.Text.Alphanumeric
import RelQuery.Text.AlphanumericTable
import RelQuery.Text.Case
import RelQuery.Text.CaseTable
import RelQuery.Text.Utf8
import RelQuery.Toml.Basic
import RelQuery.Toml.Reader
import RelQuery.Toml.Record
