import SyntaxGraph.Graph.Basic

/-!
# Ownership

An owned edge and the parent of its target say the same thing twice, once looking
down and once looking up. Looking up from a node meets its owners one after the
other; a node must not come to own one of them.
-/

namespace SyntaxGraph.Graph

/-- The node is met on the way up from `start`, at most `steps` nodes of which are looked at. -/
def isAboveWithin (g : Graph) (id : NodeId) : (steps : Nat) → (start : NodeId) → Except Fault Bool
  | 0, _ => .error .unending
  | steps + 1, start =>
    if start = id then .ok true
    else
      match g.node? start with
      | none => .error (.stray start)
      | some node =>
        match node.parent with
        | none => .ok false
        | some owner => g.isAboveWithin id steps owner

/-- The node is `start` or one of its owners, near or far. -/
def isAbove (g : Graph) (id start : NodeId) : Except Fault Bool :=
  g.isAboveWithin id (g.size + 1) start

/-- Going up from the second node, from owner to owner, leads to the first; it leads from a node to
itself in no steps. -/
inductive Above (g : Graph) : NodeId → NodeId → Prop where
  | here (id : NodeId) : Above g id id
  | up {id owner start : NodeId} :
    g.parent? start = some owner → Above g id owner → Above g id start

end SyntaxGraph.Graph
