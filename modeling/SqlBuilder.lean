import SqlBuilder.Query.Step
import SqlBuilder.Sqlite
import SqlBuilder.Value.Tagged
import SqlBuilder.Proofs.Printing.Lexing
import SqlBuilder.Proofs.Building.Reachable
import SqlBuilder.Proofs.Building.Alignment
import SqlBuilder.Proofs.Building.NumberedParameters
import SqlBuilder.Proofs.Correspondence.Values
import SqlBuilder.Proofs.Correspondence.Names
import SqlBuilder.Proofs.Building.Failure
import SqlBuilder.Proofs.Printing.Insert
import SqlBuilder.Proofs.Printing.Occurrence
import SqlBuilder.Proofs.Building.Renumbering
import SqlBuilder.Proofs.Building.Conjunctions
import SqlBuilder.Proofs.Building.Clauses
import SqlBuilder.Proofs.Building.Reordering
import SqlBuilder.Proofs.Building.NullComparison
import SqlBuilder.Proofs.Row.Lookup
import SqlBuilder.Proofs.Requests.Aggregate
import SqlBuilder.Proofs.Building.Dialects
import SqlBuilder.Proofs.Building.Groups
import SqlBuilder.Proofs.Scan.Unquoting
import SqlBuilder.Proofs.Scan.Rewriting
import SqlBuilder.Proofs.Row.Timestamps
import SqlBuilder.Proofs.Sqlite.Timestamps
import SqlBuilder.Proofs.Value.Serialisation
import SqlBuilder.Proofs.Requests.AggregateValue
import SqlBuilder.Proofs.Bindings.Partition
