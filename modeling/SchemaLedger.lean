import SchemaLedger.Ledger.Document
import SchemaLedger.Load.Build
import SchemaLedger.Main
import SchemaLedger.Reconcile.Reconciler
import SchemaLedger.Store.Memory
import SchemaLedger.Proofs.Ledger.Lookup
import SchemaLedger.Proofs.Reconcile.Course
import SchemaLedger.Proofs.Reconcile.Conformance
import SchemaLedger.Proofs.Reconcile.Point
import SchemaLedger.Proofs.Reconcile.Progress
import SchemaLedger.Proofs.Reconcile.Calls
import SchemaLedger.Proofs.Reconcile.Persistence
import SchemaLedger.Proofs.Reconcile.Replay
import SchemaLedger.Proofs.Reconcile.Contention
import SchemaLedger.Proofs.Reconcile.Resumption
import SchemaLedger.Proofs.Reconcile.Idempotence
import SchemaLedger.Proofs.Reconcile.Completion
import SchemaLedger.Proofs.Reconcile.Prediction
import SchemaLedger.Proofs.Reconcile.Preservation
import SchemaLedger.Proofs.Reconcile.Times
import SchemaLedger.Proofs.Store.Nesting
import SchemaLedger.Proofs.Schema.Mirror
import SchemaLedger.Proofs.Schema.Undoing
import SchemaLedger.Proofs.Load.Agreement
import SchemaLedger.Proofs.Decimal.Digits
import SchemaLedger.Proofs.Sql.DollarQuote
import SchemaLedger.Proofs.Sql.FloatLiteral
import SchemaLedger.Proofs.Load.Sources
import SchemaLedger.Proofs.Load.Influence
import SchemaLedger.Proofs.Json.Numbers
import SchemaLedger.Proofs.Json.Values
import SchemaLedger.Proofs.Schema.Converter
import SchemaLedger.Proofs.Schema.Calls
import SchemaLedger.Proofs.Migration.Ties
import SchemaLedger.Proofs.Reconcile.Rearrangement
import SchemaLedger.Proofs.Ledger.OrderedMap
import SchemaLedger.Proofs.Reconcile.Refusal
import SchemaLedger.Proofs.Time.Stamp
import SchemaLedger.Proofs.Ledger.Document
import SchemaLedger.Proofs.Reconcile.Atomicity
import SchemaLedger.Proofs.Text.Position
import SchemaLedger.Proofs.Migration.Sections
import SchemaLedger.Proofs.Migration.MarkerLines
import SchemaLedger.Proofs.Text.ByteOrder
import SchemaLedger.Proofs.Migration.Names
import SchemaLedger.Proofs.Migration.Sorting
import SchemaLedger.Proofs.Store.Log
import SchemaLedger.Proofs.Store.Writes
import SchemaLedger.Proofs.Reconcile.Batches
