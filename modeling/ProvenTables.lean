import ProvenTables.Binary64.Arithmetic
import ProvenTables.Binary64.Basic
import ProvenTables.Binary64.Decimal
import ProvenTables.Binary64.Notation
import ProvenTables.Bytes
import ProvenTables.ColumnType
import ProvenTables.CommandLine.Arguments
import ProvenTables.CommandLine.Client
import ProvenTables.CommandLine.Daemon
import ProvenTables.CommandLine.Environment
import ProvenTables.Config.Client
import ProvenTables.Config.Json
import ProvenTables.Config.Server
import ProvenTables.Database.Entity
import ProvenTables.Database.Error
import ProvenTables.Database.Execute
import ProvenTables.Database.Open
import ProvenTables.Digest
import ProvenTables.Duration
import ProvenTables.Embedding
import ProvenTables.ErrorCode
import ProvenTables.FileTree
import ProvenTables.Http.ContentType
import ProvenTables.Http.Route
import ProvenTables.Http.Service
import ProvenTables.Json.Basic
import ProvenTables.Json.Printer
import ProvenTables.Json.Reader
import ProvenTables.Json.Record
import ProvenTables.Json.Shape
import ProvenTables.Main
import ProvenTables.Membership.Circuit
import ProvenTables.Membership.Encoding
import ProvenTables.Membership.Error
import ProvenTables.Membership.Prover
import ProvenTables.Membership.Witness
import ProvenTables.Membership.Workers
import ProvenTables.Proofs.Binary64.Notation
import ProvenTables.Proofs.Binary64.Rounding
import ProvenTables.Proofs.Binary64.Text
import ProvenTables.Proofs.Bytes
import ProvenTables.Proofs.Database.Audits
import ProvenTables.Proofs.Database.BestEffort
import ProvenTables.Proofs.Database.Composed
import ProvenTables.Proofs.Database.ContentAddressing
import ProvenTables.Proofs.Database.FailFast
import ProvenTables.Proofs.Database.Faults
import ProvenTables.Proofs.Database.Frame
import ProvenTables.Proofs.Database.Guarded
import ProvenTables.Proofs.Database.Indexing
import ProvenTables.Proofs.Database.Ingestion
import ProvenTables.Proofs.Database.Interference
import ProvenTables.Proofs.Database.Interleaving
import ProvenTables.Proofs.Database.Lineage
import ProvenTables.Proofs.Database.Mutations
import ProvenTables.Proofs.Database.Operation
import ProvenTables.Proofs.Database.OwnAddresses
import ProvenTables.Proofs.Database.PlainTables
import ProvenTables.Proofs.Database.Provability
import ProvenTables.Proofs.Database.Readability
import ProvenTables.Proofs.Database.Reference
import ProvenTables.Proofs.Database.Refinement
import ProvenTables.Proofs.Database.Replayed
import ProvenTables.Proofs.Database.Restarts
import ProvenTables.Proofs.Database.Safety
import ProvenTables.Proofs.Database.Searching
import ProvenTables.Proofs.Database.Snapshots
import ProvenTables.Proofs.Database.Trails
import ProvenTables.Proofs.Database.Transience
import ProvenTables.Proofs.Digest
import ProvenTables.Proofs.Digest.Evaluation
import ProvenTables.Proofs.Index
import ProvenTables.Proofs.Json.Alike
import ProvenTables.Proofs.Json.Grammar
import ProvenTables.Proofs.Json.Indented
import ProvenTables.Proofs.Json.Number
import ProvenTables.Proofs.Json.RoundTrip
import ProvenTables.Proofs.Json.Spelling
import ProvenTables.Proofs.Membership.Divisibility
import ProvenTables.Proofs.Membership.ExactTypes
import ProvenTables.Proofs.Membership.Preimage
import ProvenTables.Proofs.Membership.Selection
import ProvenTables.Proofs.Membership.Slots
import ProvenTables.Proofs.Membership.Transcripts
import ProvenTables.Proofs.Membership.Typing
import ProvenTables.Proofs.Membership.ZeroWitness
import ProvenTables.Proofs.Query.Arrangement
import ProvenTables.Proofs.Query.Evaluation
import ProvenTables.Proofs.Query.Filtering
import ProvenTables.Proofs.Query.Grouping
import ProvenTables.Proofs.Query.Partition
import ProvenTables.Proofs.Query.Rows
import ProvenTables.Proofs.Query.Snapshots
import ProvenTables.Proofs.Query.Sorting
import ProvenTables.Proofs.Query.StableSorts
import ProvenTables.Proofs.Scalar
import ProvenTables.Proofs.Scalar.Order
import ProvenTables.Proofs.Scalar.Text
import ProvenTables.Proofs.SortedMap
import ProvenTables.Proofs.Sql.Accepted
import ProvenTables.Proofs.Sql.Brackets
import ProvenTables.Proofs.Sql.Clauses
import ProvenTables.Proofs.Sql.Keywords
import ProvenTables.Proofs.Sql.Lists
import ProvenTables.Proofs.Sql.Nesting
import ProvenTables.Proofs.Sql.Parts
import ProvenTables.Proofs.Sql.Quotations
import ProvenTables.Proofs.Sql.Rendering
import ProvenTables.Proofs.Sql.Respacing
import ProvenTables.Proofs.Sql.RoundTrip
import ProvenTables.Proofs.Sql.Spacing
import ProvenTables.Proofs.Sql.Values
import ProvenTables.Proofs.Storage.Addressing
import ProvenTables.Proofs.Storage.Backoff
import ProvenTables.Proofs.Storage.Branches
import ProvenTables.Proofs.Storage.Closed
import ProvenTables.Proofs.Storage.Decode
import ProvenTables.Proofs.Storage.Files
import ProvenTables.Proofs.Storage.Identifiers
import ProvenTables.Proofs.Storage.Payload
import ProvenTables.Proofs.Storage.Reading
import ProvenTables.Proofs.Storage.Replay
import ProvenTables.Proofs.Storage.Retries
import ProvenTables.Proofs.Storage.RoundTrip
import ProvenTables.Proofs.Storage.Soundness
import ProvenTables.Proofs.Subperm
import ProvenTables.Proofs.Text.Blank
import ProvenTables.Proofs.Text.Digits
import ProvenTables.Proofs.Text.Integers
import ProvenTables.Proofs.Timestamp.RoundTrip
import ProvenTables.Proofs.Traverse
import ProvenTables.Query.Cosine
import ProvenTables.Query.Plan
import ProvenTables.Report.Describe
import ProvenTables.Report.Format
import ProvenTables.Report.Grid
import ProvenTables.Scalar
import ProvenTables.SortedMap
import ProvenTables.Sql.Literal
import ProvenTables.Sql.Nesting
import ProvenTables.Sql.ParseError
import ProvenTables.Sql.Parser
import ProvenTables.Sql.Statement
import ProvenTables.Storage.Address
import ProvenTables.Storage.Contended
import ProvenTables.Storage.Directory
import ProvenTables.Storage.Error
import ProvenTables.Storage.History
import ProvenTables.Storage.Medium
import ProvenTables.Storage.Memory
import ProvenTables.Storage.Payload
import ProvenTables.Storage.Procedure
import ProvenTables.Storage.Registry
import ProvenTables.Storage.Retry
import ProvenTables.Storage.Retrying
import ProvenTables.Table
import ProvenTables.Text.Blank
import ProvenTables.Text.CharWidth
import ProvenTables.Text.Hex
import ProvenTables.Text.Letters
import ProvenTables.Text.Ligature
import ProvenTables.Text.LowerCase
import ProvenTables.Text.Numeral
import ProvenTables.Text.Pictogram
import ProvenTables.Text.Width
import ProvenTables.Timestamp.Basic
import ProvenTables.Timestamp.Calendar
import ProvenTables.Timestamp.Notation
import ProvenTables.Toml.Basic
import ProvenTables.Toml.Decode
import ProvenTables.Toml.Printer
import ProvenTables.Toml.Reader
