import GraphWalk.Answer
import GraphWalk.Command.Basic
import GraphWalk.Command.Codec
import GraphWalk.Command.Error
import GraphWalk.Decimal.Basic
import GraphWalk.Decimal.Binary
import GraphWalk.Decimal.Shortest
import GraphWalk.Distinct
import GraphWalk.Error
import GraphWalk.Executor
import GraphWalk.Expander
import GraphWalk.Filter.Label
import GraphWalk.Filter.Node
import GraphWalk.Filter.Relationship
import GraphWalk.Graph.Adjacency
import GraphWalk.Graph.Basic
import GraphWalk.Graph.Codec
import GraphWalk.Graph.Record
import GraphWalk.Graph.Snapshot
import GraphWalk.Ident
import GraphWalk.Json.Basic
import GraphWalk.Json.Document
import GraphWalk.Json.Literal
import GraphWalk.Json.Printer
import GraphWalk.Json.Reader
import GraphWalk.Json.Record
import GraphWalk.Options.Record
import GraphWalk.Options.Reference
import GraphWalk.Path
import GraphWalk.Procedure
import GraphWalk.Text.Blank
import GraphWalk.Text.Quoted
import GraphWalk.Text.Split
import GraphWalk.Text.Unprinted
import GraphWalk.Traversal.Config
import GraphWalk.Traversal.Evaluation
import GraphWalk.Traversal.Forest
import GraphWalk.Traversal.Frontier
import GraphWalk.Traversal.Rows
import GraphWalk.Traversal.Run
import GraphWalk.Traversal.Tracker
import GraphWalk.Uniqueness
import GraphWalk.Word
import GraphWalk.Proofs.Graph.Adjacency
import GraphWalk.Proofs.Graph.Plain
import GraphWalk.Proofs.Graph.History
import GraphWalk.Proofs.Graph.Refinement
import GraphWalk.Proofs.Graph.Identity
import GraphWalk.Proofs.Traversal.Search
import GraphWalk.Proofs.Traversal.Unfolding
import GraphWalk.Proofs.Traversal.Enumeration
import GraphWalk.Proofs.Traversal.Evaluation
import GraphWalk.Proofs.Traversal.Expansion
import GraphWalk.Proofs.Traversal.Claiming
import GraphWalk.Proofs.Traversal.Termination
import GraphWalk.Proofs.Traversal.ShortestPaths
import GraphWalk.Proofs.Traversal.FilterLaw
import GraphWalk.Proofs.Traversal.Repetition
import GraphWalk.Proofs.Traversal.Rows
import GraphWalk.Proofs.Traversal.SpanningForest
import GraphWalk.Proofs.Traversal.Limit
import GraphWalk.Proofs.Traversal.Cancellation
import GraphWalk.Proofs.Traversal.Starts
import GraphWalk.Proofs.Traversal.Agreement
import GraphWalk.Proofs.Traversal.Cover
import GraphWalk.Proofs.Traversal.Ledger
import GraphWalk.Proofs.Traversal.Recursion
import GraphWalk.Proofs.Traversal.Levels
import GraphWalk.Proofs.Traversal.Denial
import GraphWalk.Proofs.Traversal.Following
import GraphWalk.Proofs.Traversal.LevelBound
import GraphWalk.Proofs.Traversal.PolicyOrder
import GraphWalk.Proofs.Graph.Snapshot
import GraphWalk.Proofs.Graph.Codec
import GraphWalk.Proofs.Graph.Reload
import GraphWalk.Proofs.Traversal.Reload
import GraphWalk.Proofs.Text.Split
import GraphWalk.Proofs.Filter.Label
import GraphWalk.Proofs.Filter.Concatenation
import GraphWalk.Proofs.Filter.Incidence
import GraphWalk.Proofs.Filter.Rendering
import GraphWalk.Proofs.Filter.TypeNames
import GraphWalk.Proofs.Options.Resolution
import GraphWalk.Proofs.Command.Checks
import GraphWalk.Proofs.Command.Positional
import GraphWalk.Proofs.Traversal.Reach
import GraphWalk.Proofs.Options.References
import GraphWalk.Proofs.Options.Superseded
import GraphWalk.Proofs.Command.Codec
import GraphWalk.Proofs.Traversal.Ancestry
import GraphWalk.Proofs.Graph.Removal
import GraphWalk.Proofs.Text.Shielded
import GraphWalk.Proofs.Filter.Fragments
