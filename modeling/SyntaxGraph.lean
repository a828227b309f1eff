import SyntaxGraph.Archive
import SyntaxGraph.Blueprint.Catalog
import SyntaxGraph.Command
import SyntaxGraph.Equality
import SyntaxGraph.Outline
import SyntaxGraph.Rules
import SyntaxGraph.Walk
import SyntaxGraph.Workspace
import SyntaxGraph.Proofs.Writes
import SyntaxGraph.Proofs.Checks
import SyntaxGraph.Proofs.Reachable
import SyntaxGraph.Proofs.Capacity
import SyntaxGraph.Proofs.Ownership
import SyntaxGraph.Proofs.Bisimulation
import SyntaxGraph.Proofs.FirstVisits
import SyntaxGraph.Proofs.Resolved
import SyntaxGraph.Proofs.Monotone
import SyntaxGraph.Proofs.Layouts
import SyntaxGraph.Proofs.Phases
import SyntaxGraph.Proofs.ValueTypes
import SyntaxGraph.Proofs.Interchange
import SyntaxGraph.Proofs.Replacements
import SyntaxGraph.Proofs.IntegerTypes
import SyntaxGraph.Proofs.Atomicity
import SyntaxGraph.Proofs.Likeness
import SyntaxGraph.Proofs.Names
import SyntaxGraph.Proofs.Preorder
import SyntaxGraph.Proofs.Twins
import SyntaxGraph.Proofs.Clients
import SyntaxGraph.Proofs.Sessions
import SyntaxGraph.Proofs.Handles
import SyntaxGraph.Proofs.Spans
import SyntaxGraph.Proofs.Forwarding
import SyntaxGraph.Proofs.Depth
import SyntaxGraph.Proofs.LookUps
import SyntaxGraph.Proofs.InTurn
import SyntaxGraph.Proofs.Representatives
import SyntaxGraph.Proofs.Splices
import SyntaxGraph.Proofs.Undo
import SyntaxGraph.Proofs.Pruning
import SyntaxGraph.Proofs.Searches
import SyntaxGraph.Proofs.IntegerDefaults
import SyntaxGraph.Proofs.Reasons
import SyntaxGraph.Proofs.References
import SyntaxGraph.Proofs.Strays
import SyntaxGraph.Proofs.Catalog
import SyntaxGraph.Proofs.Creations
import SyntaxGraph.Proofs.Slots
import SyntaxGraph.Proofs.FullShards
import SyntaxGraph.Proofs.Outlines
import SyntaxGraph.Proofs.Quoting
import SyntaxGraph.Proofs.Descriptions
import SyntaxGraph.Proofs.Lines
