import SyntaxGraph.Graph.Basic

/-!
# Structural equality

Two nodes are equal when they have the same kind and their children are pairwise
equal. Where a node comes from, who owns it and whether an edge owns its target
play no part.

Recursive types are compared coinductively: a pair that is being compared further
up counts as equal. The pairs being compared are kept in a list that a
comparison leaves as it found it, so one list serves several questions.
-/

namespace SyntaxGraph

/-- Two nodes that are being compared, the earlier one first. -/
abbrev NodePair := NodeId × NodeId

/-- The pair of two nodes, whichever of them comes first. -/
def NodePair.of (a b : NodeId) : NodePair := if a.before b then (a, b) else (b, a)

namespace Graph

/-- All pairs compare equal, in order and stopping at the first that does not. -/
def allPairs {σ ε : Type} (compare : NodeId → NodeId → σ → Except ε (Bool × σ)) :
    List (NodeId × NodeId) → σ → Except ε (Bool × σ)
  | [], state => .ok (true, state)
  | (a, b) :: rest, state =>
    match compare a b state with
    | .ok (true, state) => allPairs compare rest state
    | other => other

/-- The comparison of two nodes with a limit on its depth, under the assumption that the pairs of
the list are equal. -/
def isEqualWithin (g : Graph) :
    (depth : Nat) → NodeId → NodeId → List NodePair → Except Fault (Bool × List NodePair)
  | 0, _, _, _ => .error .unending
  | depth + 1, a, b, assumed =>
    if a = b then .ok (true, assumed)
    else
      match g.node? a, g.node? b with
      | none, _ => .error (.stray a)
      | some _, none => .error (.stray b)
      | some x, some y =>
        if x.kind ≠ y.kind then .ok (false, assumed)
        else if x.children.length ≠ y.children.length then .ok (false, assumed)
        else if NodePair.of a b ∈ assumed then .ok (true, assumed)
        else
          match allPairs (g.isEqualWithin depth) (x.targets.zip y.targets)
              (NodePair.of a b :: assumed) with
          | .ok (equal, assumed) => .ok (equal, assumed.erase (NodePair.of a b))
          | .error fault => .error fault

/-- How deep a comparison can go: no deeper than there are pairs, which are assumed one by one, and
one step more. -/
def pairLimit (g : Graph) : Nat := g.size * g.size + 2

/-- The nodes are structurally equal, if the pairs of the list are. -/
def isEqualFrom (g : Graph) (a b : NodeId) (assumed : List NodePair) :
    Except Fault (Bool × List NodePair) :=
  g.isEqualWithin g.pairLimit a b assumed

/-- The nodes are structurally equal. -/
def isEqual (g : Graph) (a b : NodeId) : Except Fault Bool :=
  (g.isEqualFrom a b []).map Prod.fst

/-- One of the nodes is structurally equal to `id`. -/
def isEqualToAny (g : Graph) (id : NodeId) : List NodeId → Except Fault Bool
  | [] => .ok false
  | candidate :: rest =>
    match g.isEqual candidate id with
    | .ok false => g.isEqualToAny id rest
    | other => other

/-- The nodes after the representatives found so far, less those that equal a representative. -/
def dedupFrom (g : Graph) (found : List NodeId) : List NodeId → Except Fault (List NodeId)
  | [] => .ok found
  | id :: rest =>
    match g.isEqualToAny id found with
    | .ok true => g.dedupFrom found rest
    | .ok false => g.dedupFrom (found ++ [id]) rest
    | .error fault => .error fault

/-- The first node of each class of structurally equal ones, in order. -/
def dedup (g : Graph) (ids : List NodeId) : Except Fault (List NodeId) := g.dedupFrom [] ids

end Graph

end SyntaxGraph
