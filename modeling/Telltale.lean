import Telltale.Disk
import Telltale.Main
import Telltale.Proofs.Session.Isolation
import Telltale.Proofs.Snapshot.ClosedWorld
import Telltale.Proofs.Trigger.History
import Telltale.Proofs.Expr.Outputs
import Telltale.Proofs.Rule.Evidence
import Telltale.Proofs.Snapshot.Diagnostics
import Telltale.Proofs.Expr.Connectives
import Telltale.Proofs.Rule.Translation
import Telltale.Proofs.Catalog.Bare
import Telltale.Proofs.Session.Defaults
import Telltale.Proofs.Session.Flags
import Telltale.Proofs.Expr.Reads
import Telltale.Proofs.Session.Dashboard
import Telltale.Proofs.Recency.History
import Telltale.Proofs.Session.Times
import Telltale.Proofs.Double.Rounding
import Telltale.Proofs.Recency.Sight
import Telltale.Proofs.Session.Windows
import Telltale.Proofs.Session.Duplicate
import Telltale.Proofs.Recency.Shift
import Telltale.Proofs.Session.Shift
import Telltale.Proofs.Expr.Shifts
import Telltale.Proofs.Rule.Shifts
import Telltale.Proofs.Rule.WellFormed
import Telltale.Proofs.Catalog.Events
import Telltale.Proofs.Rule.Entries
import Telltale.Proofs.Document.Entrywise
import Telltale.Proofs.Command.Looks
import Telltale.Proofs.Command.Replay
import Telltale.Proofs.Double.Order
import Telltale.Proofs.Comparison.Integers
import Telltale.Proofs.Number.FlagWord
import Telltale.Proofs.Recency.Bounds
import Telltale.Proofs.Table.Pairs
import Telltale.Proofs.Datum.Spelled
import Telltale.Proofs.Expr.Written
import Telltale.Proofs.Yaml.Numerals
import Telltale.Proofs.Yaml.Spelled
import Telltale.Proofs.Catalog.Written
import Telltale.Proofs.Verdict.Order
import Telltale.Proofs.Expr.Algebra
import Telltale.Proofs.Rule.Kleene
import Telltale.Proofs.Expr.Survives
import Telltale.Proofs.Session.OwnEvent
import Telltale.Proofs.Expr.Priority
import Telltale.Proofs.Snapshot.Views
import Telltale.Proofs.Rule.Typos
import Telltale.Proofs.Decimal.Shortest
import Telltale.Proofs.Number.Kinds
import Telltale.Proofs.Json.Kinds
import Telltale.Proofs.Expr.Kinds
import Telltale.Proofs.Rule.Kinds
import Telltale.Proofs.Comparison.Preorder
import Telltale.Proofs.Frame.Namespaces
import Telltale.Proofs.Expr.OwnFrame
import Telltale.Proofs.Identifier.Slugs
import Telltale.Proofs.Catalog.Combiners
import Telltale.Proofs.Command.Malformed
import Telltale.Proofs.Trigger.Pool
