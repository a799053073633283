import CampusQuery.Dataset
import CampusQuery.Error.Basic
import CampusQuery.Error.Query
import CampusQuery.Error.Record
import CampusQuery.Json.Basic
import CampusQuery.Json.Number
import CampusQuery.Json.Reader
import CampusQuery.Json.Token
import CampusQuery.Json.Writer
import CampusQuery.Numeric.Binary64
import CampusQuery.Numeric.Decimal
import CampusQuery.Numeric.DoubleLength
import CampusQuery.Numeric.Layout
import CampusQuery.Numeric.Numeral
import CampusQuery.Numeric.Rounding
import CampusQuery.Numeric.Shortest
import CampusQuery.Query.Aggregate
import CampusQuery.Query.Basic
import CampusQuery.Query.Binding
import CampusQuery.Query.Building
import CampusQuery.Query.Execution
import CampusQuery.Query.FieldRef
import CampusQuery.Query.Grouping
import CampusQuery.Query.Keyword
import CampusQuery.Query.Options
import CampusQuery.Query.Pattern
import CampusQuery.Query.Predicate
import CampusQuery.Query.Selection
import CampusQuery.Query.Validation
import CampusQuery.Record.Basic
import CampusQuery.Record.Json
import CampusQuery.Registry.Basic
import CampusQuery.Registry.Cell
import CampusQuery.Registry.Digest
import CampusQuery.Registry.Failure
import CampusQuery.Registry.IndexedShelf
import CampusQuery.Registry.Shelf
import CampusQuery.Registry.Storage
import CampusQuery.Registry.StoredNumber
import CampusQuery.Registry.Timestamp
import CampusQuery.Row
import CampusQuery.Schema
import CampusQuery.Service.Http
import CampusQuery.Service.MediaType
import CampusQuery.Service.Path
import CampusQuery.Settings
import CampusQuery.Settings.Path
import CampusQuery.Sorting.Basic
import CampusQuery.Sorting.Merging
import CampusQuery.Sorting.Partition
import CampusQuery.Sorting.Runs
import CampusQuery.Text.Blank
import CampusQuery.Text.Literal
import CampusQuery.Text.Printable
import CampusQuery.Value
import CampusQuery.Proofs.Outcome
import CampusQuery.Proofs.Row
import CampusQuery.Proofs.Row.Insertion
import CampusQuery.Proofs.Sorting
import CampusQuery.Proofs.Json.Members
import CampusQuery.Proofs.Json.Numeral
import CampusQuery.Proofs.Json.Proper
import CampusQuery.Proofs.Json.RoundTrip
import CampusQuery.Proofs.Numeric.Plain
import CampusQuery.Proofs.Query.Answer
import CampusQuery.Proofs.Query.Arrangement
import CampusQuery.Proofs.Query.Binding
import CampusQuery.Proofs.Query.Building
import CampusQuery.Proofs.Query.Collision
import CampusQuery.Proofs.Query.Columns
import CampusQuery.Proofs.Query.Partition
import CampusQuery.Proofs.Query.Origin
import CampusQuery.Proofs.Query.Boundary
import CampusQuery.Proofs.Query.Stale
import CampusQuery.Proofs.Query.SingleKey
import CampusQuery.Proofs.Query.Distinct
import CampusQuery.Proofs.Query.Means
import CampusQuery.Proofs.Query.Totals
import CampusQuery.Proofs.Query.Consistency
import CampusQuery.Proofs.Query.Naming
import CampusQuery.Proofs.Query.Recheck
import CampusQuery.Proofs.Query.Reordering
import CampusQuery.Proofs.Query.Conditions
import CampusQuery.Proofs.Query.Refusal
import CampusQuery.Proofs.Query.Safety
import CampusQuery.Proofs.Query.Scan
import CampusQuery.Proofs.Query.SelectionAlgebra
import CampusQuery.Proofs.Query.Validation
import CampusQuery.Proofs.Query.ValueLaws
import CampusQuery.Proofs.Query.Wildcards
import CampusQuery.Proofs.Record.Json
import CampusQuery.Proofs.Record.Normal
import CampusQuery.Proofs.Registry.Atomicity
import CampusQuery.Proofs.Registry.Causes
import CampusQuery.Proofs.Registry.Catalogue
import CampusQuery.Proofs.Registry.Durability
import CampusQuery.Proofs.Registry.Integrity
import CampusQuery.Proofs.Registry.Keeping
import CampusQuery.Proofs.Registry.Listing
import CampusQuery.Proofs.Registry.Refinement
import CampusQuery.Proofs.Registry.Restoration
import CampusQuery.Proofs.Service.Requests
import CampusQuery.Proofs.Service.Simulation
