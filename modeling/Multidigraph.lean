import Multidigraph.Graph.Operation
import Multidigraph.Graph.Navigation
import Multidigraph.Walk.BreadthFirst
import Multidigraph.AdjacencyTable
import Multidigraph.Query
import Multidigraph.Export.Dot
import Multidigraph.Export.NodeLink
import Multidigraph.Record.Read
import Multidigraph.Proofs.Lookup
import Multidigraph.Proofs.WellFormed
import Multidigraph.Proofs.History
import Multidigraph.Proofs.Recursion
import Multidigraph.Proofs.Simulation
import Multidigraph.Proofs.CallLog
import Multidigraph.Proofs.Finishing
import Multidigraph.Proofs.Search
import Multidigraph.Proofs.Course
import Multidigraph.Proofs.Containment
import Multidigraph.Proofs.Nesting
import Multidigraph.Proofs.Ageing
import Multidigraph.Proofs.Coverage
import Multidigraph.Proofs.Reentrance
import Multidigraph.Proofs.Reachability
import Multidigraph.Proofs.CycleSearch
import Multidigraph.Proofs.Remainder
import Multidigraph.Proofs.Removal
import Multidigraph.Proofs.Drift
import Multidigraph.Proofs.Permanence
import Multidigraph.Proofs.Rejection
import Multidigraph.Proofs.EdgeTable
import Multidigraph.Proofs.BackEdges
import Multidigraph.Proofs.Levels
import Multidigraph.Proofs.Component
import Multidigraph.Proofs.Arrivals
import Multidigraph.Proofs.Listing
import Multidigraph.Script
import Multidigraph.Proofs.Respelling
import Multidigraph.Proofs.Contents
import Multidigraph.Proofs.Excerpt
import Multidigraph.Proofs.Incidence
import Multidigraph.Proofs.Ending
import Multidigraph.Proofs.Alike
import Multidigraph.Proofs.Gaps
import Multidigraph.Proofs.Elsewhere
import Multidigraph.Proofs.Locality
import Multidigraph.Proofs.Replay
import Multidigraph.Proofs.Undoing
import Multidigraph.Proofs.Selection
import Multidigraph.Proofs.FinalSigma
import Multidigraph.Proofs.Anchors
import Multidigraph.Proofs.Drawing
import Multidigraph.Proofs.Siblings
import Multidigraph.Proofs.Clients
