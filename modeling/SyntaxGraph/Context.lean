import SyntaxGraph.Graph.Basic
import SyntaxGraph.Kind.Describe

/-!
# Contexts

A compilation unit works on a graph together with the table of the names in it.
The table may be shared with other units, so it can grow between two steps of
one of them.
-/

namespace SyntaxGraph

/-- A graph and the table of its names. -/
structure Context where
  graph : Graph
  names : Interner
  deriving DecidableEq, Repr

namespace Context

/-- A context without nodes, and with its own table. -/
def fresh : Context := ⟨.empty, .fresh⟩

instance : Inhabited Context := ⟨fresh⟩

/-- What stands for a node that is not there. -/
def missingText : String := "<invalid node>"

/-- The description of a kind of this context. -/
def describeKind (c : Context) (kind : Kind Name) : String := (kind.map c.names.lookup).describe

/-- The description of a node. -/
def describe (c : Context) (id : NodeId) : String :=
  match c.graph.kind? id with
  | some kind => c.describeKind kind
  | none => missingText

/-- The context for a reader who debugs a pass. -/
def debugText (c : Context) : String :=
  "AstContext \x7b nodes: " ++ toString c.graph.size ++ ", .. \x7d"

end Context

end SyntaxGraph
