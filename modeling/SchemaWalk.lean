import SchemaWalk.Executor.Log
import SchemaWalk.Executor.Script
import SchemaWalk.Main
import SchemaWalk.Shell.Session
import SchemaWalk.Proofs.Cypher.Literal
import SchemaWalk.Proofs.SavedWalk.Persistence
import SchemaWalk.Proofs.Stepper.Freshness
import SchemaWalk.Proofs.Tracker.NewestRequest
import SchemaWalk.Proofs.Cypher.Pattern
import SchemaWalk.Proofs.Cypher.Request
import SchemaWalk.Proofs.Executor.Behaviour
import SchemaWalk.Proofs.Stepper.Operation
import SchemaWalk.Proofs.Stepper.Refusal
import SchemaWalk.Proofs.Stepper.Traffic
import SchemaWalk.Proofs.Stepper.History
import SchemaWalk.Proofs.Stepper.Noninterference
import SchemaWalk.Proofs.SavedWalk.Loading
import SchemaWalk.Proofs.Shell.Session
import SchemaWalk.Proofs.Cypher.Prefix
import SchemaWalk.Proofs.Files.Paths
import SchemaWalk.Proofs.Store.Mirror
import SchemaWalk.Proofs.Shell.Agreement
import SchemaWalk.Proofs.Row.Checks
import SchemaWalk.Proofs.Adjacency.Decoding
import SchemaWalk.Proofs.Adjacency.Grouping
import SchemaWalk.Proofs.Executor.Logging
import SchemaWalk.Proofs.Json.Words
import SchemaWalk.Proofs.Json.Layout
import SchemaWalk.Proofs.Settings.RoundTrip
import SchemaWalk.Proofs.Decimal.Numeral
import SchemaWalk.Proofs.Decimal.Shortest
import SchemaWalk.Proofs.Json.Numbers
import SchemaWalk.Proofs.Cypher.Encoding
import SchemaWalk.Proofs.Counts.Uniqueness
import SchemaWalk.Proofs.Stepper.Hop
import SchemaWalk.Proofs.Counts.Decoding
import SchemaWalk.Proofs.Stepper.Listing
import SchemaWalk.Proofs.Candidate.Edits
import SchemaWalk.Proofs.Stepper.Origin
import SchemaWalk.Proofs.Counts.Ranking
import SchemaWalk.Proofs.Files.Interruption
import SchemaWalk.Proofs.Store.Interruption
import SchemaWalk.Proofs.Filter.Keys
