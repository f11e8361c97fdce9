import RecordLogic.Command.Arguments
import RecordLogic.Command.Error
import RecordLogic.Command.Run
import RecordLogic.Command.Workspace
import RecordLogic.Filter.Condition
import RecordLogic.Filter.Issue
import RecordLogic.Filter.Node
import RecordLogic.Filter.Operator
import RecordLogic.Filter.Payload
import RecordLogic.Filter.Script
import RecordLogic.Filter.Tree
import RecordLogic.Filter.Wire
import RecordLogic.Formula.Arguments
import RecordLogic.Formula.Builtin
import RecordLogic.Formula.Context
import RecordLogic.Formula.DateFunctions
import RecordLogic.Formula.Error
import RecordLogic.Formula.Eval
import RecordLogic.Formula.Expr
import RecordLogic.Formula.MathFunctions
import RecordLogic.Formula.Operator
import RecordLogic.Formula.Options
import RecordLogic.Formula.Registry
import RecordLogic.Formula.Run
import RecordLogic.Formula.TextFunctions
import RecordLogic.Formula.Wire
import RecordLogic.Json.Basic
import RecordLogic.Json.Decode
import RecordLogic.Json.Printer
import RecordLogic.Json.Reader
import RecordLogic.Main
import RecordLogic.Number.Decimal
import RecordLogic.Number.Digits
import RecordLogic.Number.Exact
import RecordLogic.Number.Shortest
import RecordLogic.Number.Text
import RecordLogic.Request
import RecordLogic.Settings.Basic
import RecordLogic.Settings.File
import RecordLogic.Table
import RecordLogic.Text.Blank
import RecordLogic.Text.Casing
import RecordLogic.Text.Casing.Table
import RecordLogic.Text.Distance
import RecordLogic.Text.Quoted
import RecordLogic.Text.Quoted.Table
import RecordLogic.Time.Calendar
import RecordLogic.Time.DateLike
import RecordLogic.Time.Instant
import RecordLogic.Time.Text
import RecordLogic.Time.Zone
import RecordLogic.Toml.Basic
import RecordLogic.Toml.Reader
import RecordLogic.Toml.Scalar
import RecordLogic.Value.Basic
import RecordLogic.Value.Coercion
import RecordLogic.Value.Equality
import RecordLogic.Value.Json
import RecordLogic.Proofs.Formula.Basic
import RecordLogic.Proofs.Formula.ShortCircuit
import RecordLogic.Proofs.Formula.Defects
import RecordLogic.Proofs.Formula.Comparison
import RecordLogic.Proofs.Formula.Names
import RecordLogic.Filter.Edit
import RecordLogic.Proofs.Filter.Clauses
import RecordLogic.Proofs.Filter.Entries
import RecordLogic.Proofs.Filter.Identity
import RecordLogic.Proofs.Filter.Load
import RecordLogic.Proofs.Filter.Restore
import RecordLogic.Proofs.Filter.Change
import RecordLogic.Proofs.Filter.Removal
import RecordLogic.Proofs.Filter.Stale
import RecordLogic.Proofs.Filter.Leaves
import RecordLogic.Proofs.Filter.Normal
import RecordLogic.Proofs.Filter.Valid
import RecordLogic.Proofs.Filter.Alike
import RecordLogic.Proofs.Filter.Replay
import RecordLogic.Proofs.Filter.Reading
import RecordLogic.Proofs.Formula.Depth
import RecordLogic.Proofs.Json.Record
import RecordLogic.Proofs.Request
import RecordLogic.Proofs.Filter.FollowsEdit
import RecordLogic.Proofs.Filter.Resolution
import RecordLogic.Proofs.Number.Whole
import RecordLogic.Proofs.Value.Normal
import RecordLogic.Proofs.Formula.Wire
import RecordLogic.Proofs.Number.Digits
import RecordLogic.Proofs.Time.Calendar
import RecordLogic.Proofs.Time.Text
import RecordLogic.Proofs.Formula.Dates
import RecordLogic.Proofs.Toml.Integers
import RecordLogic.Proofs.Toml.Lines
import RecordLogic.Proofs.Settings.File
import RecordLogic.Proofs.Settings.Choices
import RecordLogic.Proofs.Command.Changes
import RecordLogic.Proofs.Number.Order
import RecordLogic.Proofs.Value.Parts
import RecordLogic.Proofs.Value.Equality
import RecordLogic.Proofs.Number.Literal
import RecordLogic.Proofs.Number.Nearest
import RecordLogic.Proofs.Number.Search
import RecordLogic.Proofs.Number.Decimal
import RecordLogic.Proofs.Number.Numeral
import RecordLogic.Proofs.Number.RoundTrip
import RecordLogic.Proofs.Value.Order
import RecordLogic.Proofs.Formula.Ordering
import RecordLogic.Proofs.Number.Truncate
import RecordLogic.Proofs.Time.Instant
import RecordLogic.Proofs.Formula.DateSpan
import RecordLogic.Proofs.Formula.DateShift
import RecordLogic.Proofs.Time.Local
import RecordLogic.Proofs.Formula.MonthShift
import RecordLogic.Proofs.Time.Seasons
import RecordLogic.Proofs.Time.Fields
import RecordLogic.Proofs.Time.DateLike
import RecordLogic.Proofs.Time.WallClock
import RecordLogic.Proofs.Formula.LocalFields
import RecordLogic.Proofs.Formula.Today
import RecordLogic.Proofs.Formula.DeMorgan
import RecordLogic.Proofs.Formula.MemberPath
import RecordLogic.Proofs.Filter.Defects
import RecordLogic.Proofs.Filter.SameDefects
import RecordLogic.Proofs.Filter.Missing
import RecordLogic.Proofs.Filter.Commute
import RecordLogic.Proofs.Formula.Calls
import RecordLogic.Proofs.Formula.Slices
import RecordLogic.Proofs.Formula.Aggregates
import RecordLogic.Proofs.Text.Distance
import RecordLogic.Proofs.Formula.Suggestions
import RecordLogic.Proofs.Command.Documents
import RecordLogic.Proofs.Command.Failures
import RecordLogic.Proofs.Filter.RootRef
import RecordLogic.Proofs.Command.Shown
