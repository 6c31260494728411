import DocQuery.Text.Blank
import DocQuery.Text.Letter
import DocQuery.Text.Digit
import DocQuery.Text.Printable
import DocQuery.Text.Case
import DocQuery.Number.Decimal
import DocQuery.Calendar.IsoText
import DocQuery.Value.Equal
import DocQuery.Value.Literal
import DocQuery.Value.Less
import DocQuery.Value.SortKey
import DocQuery.Hash.Value
import DocQuery.Error
import DocQuery.FieldName
import DocQuery.Pattern.Syntax
import DocQuery.Wire.Date
import DocQuery.Constraint
import DocQuery.Filter.Store
import DocQuery.Pipeline
import DocQuery.Encoding.Stage
import DocQuery.Document
import DocQuery.Json.Reader
import DocQuery.Json.Writer
import DocQuery.Json.Lossless
import DocQuery.Sorting
import DocQuery.Group.Table
import DocQuery.Group.Pipeline
import DocQuery.Gateway.Basic
import DocQuery.Query.Modifier
import DocQuery.Query.Run
import DocQuery.Settings
import DocQuery.Logger
import DocQuery.Proofs.Gateway.Executor
import DocQuery.Proofs.Gateway.History
import DocQuery.Proofs.Assoc
import DocQuery.Proofs.Encoding.Targets
import DocQuery.Proofs.Selection
import DocQuery.Proofs.Selection.Stored
import DocQuery.Proofs.Selection.Encoded
import DocQuery.Proofs.Constraint
import DocQuery.Proofs.Filter.Store
import DocQuery.Proofs.Selection.Filter
import DocQuery.Proofs.FieldName.Spelling
import DocQuery.Proofs.Selection.Equality
import DocQuery.Proofs.Filter.Sharing
import DocQuery.Proofs.Pipeline
import DocQuery.Proofs.Query.Modifiers
import DocQuery.Proofs.Query.Attachment
import DocQuery.Proofs.Query.Combined
import DocQuery.Proofs.Store
import DocQuery.Proofs.Store.Sorting
import DocQuery.Proofs.Group.Key
import DocQuery.Proofs.Store.Grouping
import DocQuery.Proofs.Encoding.Stage
import DocQuery.Proofs.Encoding.Expression
import DocQuery.Proofs.Encoding.Computed
import DocQuery.Proofs.Store.Run
import DocQuery.Proofs.Value.Timely
import DocQuery.Proofs.Value.Digits
import DocQuery.Proofs.Document
import DocQuery.Proofs.Document.Kept
import DocQuery.Proofs.Document.Internal
import DocQuery.Proofs.Constraint.Outcome
import DocQuery.Proofs.Group.Rows
import DocQuery.Proofs.Query.Stored
import DocQuery.Proofs.Query.Distinct
import DocQuery.Proofs.Query.Grouping
import DocQuery.Proofs.Calendar.Number
import DocQuery.Proofs.Number.DigitOrder
import DocQuery.Proofs.Wire.Faithful
import DocQuery.Proofs.Filter.Reach
import DocQuery.Proofs.Filter.Body
import DocQuery.Proofs.Query.Workspace
import DocQuery.Proofs.Query.Copies
import DocQuery.Proofs.Query.Isolation
import DocQuery.Proofs.Json.Text
import DocQuery.Proofs.Json.Data
import DocQuery.Proofs.Encoding.Data
import DocQuery.Proofs.Query.Sent
import DocQuery.Proofs.Encoding.Settled
import DocQuery.Proofs.Encoding.Equality
import DocQuery.Proofs.Selection.Instant
import DocQuery.Proofs.Value.SameData
import DocQuery.Proofs.Document.Encoded
import DocQuery.Proofs.Filter.Commute
import DocQuery.Proofs.Query.Paging
import DocQuery.Proofs.Group.Lookup
import DocQuery.Proofs.Group.Table
import DocQuery.Proofs.Group.Views
import DocQuery.Proofs.Group.Entries
import DocQuery.Proofs.Group.Interval
import DocQuery.Proofs.Store.Lexicographic
import DocQuery.Proofs.Wire.Shapes
import DocQuery.Proofs.Wire.Epoch
import DocQuery.Proofs.Query.References
import DocQuery.Proofs.Document.Pointer
import DocQuery.Proofs.Gateway.Answer
import DocQuery.Proofs.Query.Conditions
import DocQuery.Proofs.Pattern.Literal
import DocQuery.Proofs.FieldName.RoundTrip
import DocQuery.Proofs.Group.Separated
import DocQuery.Proofs.Pattern.Safety
import DocQuery.Proofs.Value.Rekeyed
import DocQuery.Proofs.Wire.Rekeyed
import DocQuery.Proofs.Encoding.Rekeyed
import DocQuery.Proofs.Document.Rekeyed
import DocQuery.Proofs.Gateway.ConnectionString
import DocQuery.Proofs.Order
import DocQuery.Proofs.Group.Boxed
import DocQuery.Proofs.Encoding.Spelled
