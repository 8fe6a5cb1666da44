import RelationalMapper.Assoc
import RelationalMapper.Binary64.Basic
import RelationalMapper.Binary64.Shortest
import RelationalMapper.Cache.Action
import RelationalMapper.Cache.Channel
import RelationalMapper.Cache.Program
import RelationalMapper.Cache.RowActions
import RelationalMapper.Cache.RowStore
import RelationalMapper.Cache.UnitOfWork
import RelationalMapper.Cache.ViewActions
import RelationalMapper.Cache.ViewUpkeep
import RelationalMapper.Config.Fields
import RelationalMapper.Config.Mapping
import RelationalMapper.Config.Settings
import RelationalMapper.Dialect
import RelationalMapper.Fault
import RelationalMapper.Identity
import RelationalMapper.Json.Basic
import RelationalMapper.Json.Codec
import RelationalMapper.Json.Number
import RelationalMapper.Json.Reader
import RelationalMapper.Locking
import RelationalMapper.Query.Comparison
import RelationalMapper.Query.Qualifier
import RelationalMapper.RowValues
import RelationalMapper.Schema.Entity
import RelationalMapper.Schema.Model
import RelationalMapper.Sql.Command
import RelationalMapper.Sql.Compile
import RelationalMapper.Sql.Parameter
import RelationalMapper.Sql.Resolve
import RelationalMapper.Sql.Statement
import RelationalMapper.Sql.Writer
import RelationalMapper.Text.Digits
import RelationalMapper.Text.Letters
import RelationalMapper.Toml.Document
import RelationalMapper.Toml.Reader
import RelationalMapper.Toml.Scalar
import RelationalMapper.Toml.Text
import RelationalMapper.Value
import RelationalMapper.Proofs.Store.Integrity
import RelationalMapper.Proofs.Run.Step
import RelationalMapper.Proofs.Run.Mirror
import RelationalMapper.Proofs.Run.Watch
import RelationalMapper.Proofs.Run.Integrity
import RelationalMapper.Proofs.Schema.Validity
import RelationalMapper.Proofs.View.Follow
import RelationalMapper.Proofs.View.Announce
import RelationalMapper.Proofs.Store.Children
import RelationalMapper.Proofs.View.Plain
import RelationalMapper.Proofs.View.Load
import RelationalMapper.Proofs.View.Faithful
import RelationalMapper.Proofs.View.Progress
import RelationalMapper.Proofs.View.Membership
import RelationalMapper.Proofs.Sql.Binding
import RelationalMapper.Proofs.Sql.Logic
import RelationalMapper.Proofs.Sql.Meaning
import RelationalMapper.Proofs.View.Refusal
import RelationalMapper.Proofs.Sql.Naming
import RelationalMapper.Proofs.Sql.Matching
import RelationalMapper.Proofs.Run.Lead
import RelationalMapper.Proofs.Run.Abandon
import RelationalMapper.Proofs.Run.Guard
import RelationalMapper.Proofs.View.Lasting
import RelationalMapper.Proofs.View.Nested
import RelationalMapper.Proofs.View.Seat
import RelationalMapper.Proofs.View.Course
import RelationalMapper.Proofs.View.Reentry
import RelationalMapper.Proofs.View.Orderly
import RelationalMapper.Proofs.Sql.Scope
import RelationalMapper.Proofs.Sql.Placeholder
import RelationalMapper.Proofs.Config.Inverse
import RelationalMapper.Proofs.Config.Building
import RelationalMapper.Proofs.View.Attuned
import RelationalMapper.Proofs.View.Arrival
import RelationalMapper.Proofs.Sql.Outline
import RelationalMapper.Proofs.Sql.Agreement
import RelationalMapper.Proofs.Sql.Layout
import RelationalMapper.Proofs.Sql.Quoting
import RelationalMapper.Proofs.Sql.Marker
import RelationalMapper.Proofs.Run.Trace
import RelationalMapper.Proofs.Run.Turn
import RelationalMapper.Proofs.Run.Lifecycle
import RelationalMapper.Proofs.Run.LastStored
import RelationalMapper.Proofs.View.Onlooker
import RelationalMapper.Proofs.View.Enrolment
import RelationalMapper.Proofs.Run.Account
import RelationalMapper.Proofs.View.Twin
import RelationalMapper.Proofs.View.Fetching
import RelationalMapper.Proofs.View.Owner
import RelationalMapper.Proofs.View.LeftBehind
import RelationalMapper.Proofs.View.Reload
import RelationalMapper.Proofs.Sql.Faults
import RelationalMapper.Proofs.Sql.Guarded
import RelationalMapper.Proofs.Store.Intake
import RelationalMapper.Proofs.View.Merge
import RelationalMapper.Proofs.View.Failing
import RelationalMapper.Proofs.Run.Settling
import RelationalMapper.Proofs.Sql.Nesting
import RelationalMapper.Proofs.Sql.Restating
import RelationalMapper.Proofs.Sql.Sizing
import RelationalMapper.Proofs.Store.Settling
import RelationalMapper.Proofs.Sql.Search
import RelationalMapper.Proofs.Json.RoundTrip
import RelationalMapper.Proofs.View.Placing
import RelationalMapper.Proofs.View.Straying
import RelationalMapper.Proofs.Sql.Recall
