import SqlGraph.Accumulate.Plan
import SqlGraph.Catalog.Listing
import SqlGraph.Graph.Copy
import SqlGraph.Graph.Handles
import SqlGraph.Graph.Listing
import SqlGraph.Graph.Liveness
import SqlGraph.Graph.Record
import SqlGraph.Graph.Traversal
import SqlGraph.Graph.Walk
import SqlGraph.JoinTree.Derived
import SqlGraph.Json.Reader
import SqlGraph.Proofs.Graph.Policies
import SqlGraph.Proofs.Graph.Renaming
import SqlGraph.Proofs.Graph.Streaming
import SqlGraph.Proofs.JoinTree.Invariant
import SqlGraph.Proofs.JoinTree.Labels
import SqlGraph.Proofs.Render.Closed
import SqlGraph.Proofs.Render.Escaping
import SqlGraph.Proofs.Render.Stable
import SqlGraph.Proofs.Template.Finalizing
import SqlGraph.Query.Chain
import SqlGraph.Render.Inline
import SqlGraph.Template.Finalize
import SqlGraph.Template.Prepared
import SqlGraph.Text.Keyword
import SqlGraph.Proofs.JoinTree.Scoping
import SqlGraph.Proofs.Render.Introductions
import SqlGraph.Proofs.Query.NormalForm
import SqlGraph.Proofs.Render.CriteriaText
import SqlGraph.Proofs.Graph.Footprint
import SqlGraph.Proofs.Graph.Opaque
import SqlGraph.Proofs.Graph.Relocating
import SqlGraph.Proofs.Graph.Swapping
import SqlGraph.Proofs.Graph.ZeroSigns
import SqlGraph.Proofs.JoinTree.Atomic
import SqlGraph.Proofs.JoinTree.Conditions
import SqlGraph.Proofs.Render.Expanding
import SqlGraph.Proofs.Render.Composition
import SqlGraph.Proofs.Render.NullSafety
import SqlGraph.Proofs.Render.Visible
import SqlGraph.Proofs.Graph.NullKeys
import SqlGraph.Proofs.Graph.Replaying
import SqlGraph.Proofs.Graph.Visiting
import SqlGraph.Proofs.Render.TableNames
import SqlGraph.Proofs.Accumulate.Grouping
import SqlGraph.Proofs.Graph.Isolation
import SqlGraph.Proofs.Graph.Substitution
import SqlGraph.Proofs.Graph.Wiring
import SqlGraph.Proofs.Graph.Collecting
import SqlGraph.Proofs.Render.Literals
