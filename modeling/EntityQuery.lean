import EntityQuery.Calendar.Date
import EntityQuery.Calendar.DateTime
import EntityQuery.Calendar.Fields
import EntityQuery.Calendar.Literal
import EntityQuery.Calendar.Pattern
import EntityQuery.Calendar.Reading
import EntityQuery.Calendar.Week
import EntityQuery.CommandLine.Options
import EntityQuery.CommandLine.Run
import EntityQuery.Config
import EntityQuery.Error
import EntityQuery.Execution.Backend
import EntityQuery.Execution.Executor
import EntityQuery.Execution.Row
import EntityQuery.Execution.Sorting
import EntityQuery.Execution.Stage
import EntityQuery.Expression.Basic
import EntityQuery.Expression.Evaluation
import EntityQuery.Filter.Node
import EntityQuery.Filter.Parse
import EntityQuery.Filter.Scan
import EntityQuery.Filter.Token
import EntityQuery.Floating.Basic
import EntityQuery.Floating.Rounding
import EntityQuery.Floating.Shortest
import EntityQuery.Floating.Text
import EntityQuery.Handler.Basic
import EntityQuery.Handler.Builtin
import EntityQuery.Handler.Extension
import EntityQuery.Handler.Literal
import EntityQuery.Handler.Predicate
import EntityQuery.Handler.Registry
import EntityQuery.Keyed
import EntityQuery.Main
import EntityQuery.Numeral.Integer
import EntityQuery.Numeral.Width
import EntityQuery.Operator
import EntityQuery.Request.Basic
import EntityQuery.Request.Columns
import EntityQuery.Request.Condition
import EntityQuery.Request.Draft
import EntityQuery.Request.Ordering
import EntityQuery.Request.Parentheses
import EntityQuery.Request.Window
import EntityQuery.Sample
import EntityQuery.Schema.Catalog
import EntityQuery.Schema.Declaration
import EntityQuery.Schema.FieldType
import EntityQuery.Schema.Path
import EntityQuery.Schema.Selector
import EntityQuery.Store
import EntityQuery.Text.Alphanumeric
import EntityQuery.Text.Blank
import EntityQuery.Text.CaseTable
import EntityQuery.Text.Lowercase
import EntityQuery.Text.Matching
import EntityQuery.Text.Ranges
import EntityQuery.Text.Split
import EntityQuery.Truth
import EntityQuery.Value.Basic
import EntityQuery.Value.Json
import EntityQuery.Value.Order
import EntityQuery.Value.Text
import EntityQuery.Proofs.Condition.Meaning
import EntityQuery.Proofs.Schema.Conformance
import EntityQuery.Proofs.Schema.Resolution
import EntityQuery.Proofs.Handler.Builtin
import EntityQuery.Proofs.Handler.Delegation
import EntityQuery.Proofs.Condition.Soundness
import EntityQuery.Proofs.Filter.Rendering
import EntityQuery.Proofs.Filter.RoundTrip
import EntityQuery.Proofs.Execution.StableSort
import EntityQuery.Proofs.Execution.KeyOrder
import EntityQuery.Proofs.Execution.Answers
import EntityQuery.Proofs.Execution.Pipeline
import EntityQuery.Proofs.Execution.ListQuery
import EntityQuery.Proofs.Execution.Refinement
import EntityQuery.Proofs.Filter.Grammar
import EntityQuery.Proofs.Filter.Recognition
import EntityQuery.Proofs.Condition.Builtin
import EntityQuery.Proofs.Condition.Complement
import EntityQuery.Proofs.Condition.Equality
import EntityQuery.Proofs.Alias
import EntityQuery.Proofs.Schema.Declaration
import EntityQuery.Proofs.Schema.Walk
import EntityQuery.Proofs.Condition.Extension
import EntityQuery.Proofs.Execution.Pages
import EntityQuery.Proofs.Expression.Membership
import EntityQuery.Proofs.Execution.FirstRow
import EntityQuery.Proofs.Floating.Nearest
import EntityQuery.Proofs.Numeral.Scientific
import EntityQuery.Proofs.Handler.Number
import EntityQuery.Proofs.Execution.Coherence
import EntityQuery.Proofs.Condition.IgnoreCase
import EntityQuery.Proofs.Condition.Nesting
import EntityQuery.Proofs.Request.Ordering
import EntityQuery.Proofs.Expression.Existential
import EntityQuery.Proofs.Expression.Kleene
import EntityQuery.Proofs.Handler.Independence
import EntityQuery.Proofs.Condition.Blame
import EntityQuery.Proofs.Condition.Writable
import EntityQuery.Proofs.Filter.Tiling
import EntityQuery.Proofs.Filter.Viable
import EntityQuery.Proofs.Expression.Dependence
import EntityQuery.Proofs.Expression.Likeness
import EntityQuery.Proofs.Request.FanOut
import EntityQuery.Proofs.Request.Paging
import EntityQuery.Proofs.Condition.Reading
import EntityQuery.Proofs.Request.Causes
import EntityQuery.Proofs.Schema.Inheritance
import EntityQuery.Proofs.Calendar.Layout
import EntityQuery.Proofs.Calendar.Rendering
import EntityQuery.Proofs.Condition.Moment
import EntityQuery.Proofs.Calendar.DayNumber
import EntityQuery.Proofs.Calendar.EpochMilli
import EntityQuery.Proofs.Calendar.BareInteger
