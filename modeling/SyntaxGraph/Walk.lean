import SyntaxGraph.Graph.Basic

/-!
# Walking an owned tree

A walk visits a node before its owned children, and those from left to right.
References are not followed: what they lead to is visited where it is owned. The
visitor carries a state along and decides at each node whether the walk goes on
below it.

Searches are walks. They ask a predicate on kinds, which may have a state of its
own; a search for the first hit asks nothing more once it has one.
-/

namespace SyntaxGraph.Graph

/-- What a visitor does at a node: go below it or not, and the next state. -/
abbrev Visitor (σ : Type) := NodeId → Node → σ → Bool × σ

/-- The walk from a node, which follows at most `depth` owned edges less one in a row. -/
def visitWithin {σ : Type} (g : Graph) (visitor : Visitor σ) :
    (depth : Nat) → NodeId → σ → Except Fault σ
  | 0, _, _ => .error .unending
  | depth + 1, id, state =>
    match g.node? id with
    | none => .error (.stray id)
    | some node =>
      match visitor id node state with
      | (true, state) =>
        node.ownedChildren.foldlM (fun state child => g.visitWithin visitor depth child state) state
      | (false, state) => .ok state

/-- How many nodes in a row, each owned by the one before, a walk may meet. -/
def walkLimit (g : Graph) : Nat := g.size + 1

/-- The walk over the tree of a node. -/
def visit {σ : Type} (g : Graph) (visitor : Visitor σ) (root : NodeId) (state : σ) :
    Except Fault σ :=
  g.visitWithin visitor g.walkLimit root state

/-- The walks over the trees of a node's owned children. -/
def visitChildren {σ : Type} (g : Graph) (visitor : Visitor σ) (id : NodeId) (state : σ) :
    Except Fault σ := do
  let node ← g.read id
  node.ownedChildren.foldlM (fun state child => g.visit visitor child state) state

/-- A question about kinds whose answer may depend on what was asked before. -/
abbrev Search (σ : Type) := Kind Name → σ → Bool × σ

/-- What a search has found, the last one first, and the state of its predicate. -/
structure Findings (σ : Type) where
  found : List NodeId
  state : σ

/-- Asks the predicate about a node and notes the node if it is a hit. -/
def inspect {σ : Type} (predicate : Search σ) (id : NodeId) (node : Node) (f : Findings σ) :
    Findings σ :=
  match predicate node.kind f.state with
  | (true, state) => ⟨id :: f.found, state⟩
  | (false, state) => ⟨f.found, state⟩

/-- All nodes of the tree whose kinds satisfy the predicate. -/
def collect {σ : Type} (g : Graph) (root : NodeId) (predicate : Search σ) (state : σ) :
    Except Fault (List NodeId × σ) :=
  (g.visit (fun id node f => (true, inspect predicate id node f)) root ⟨[], state⟩).map fun f =>
    (f.found.reverse, f.state)

/-- The first node of the tree whose kind satisfies the predicate. -/
def findFirst {σ : Type} (g : Graph) (root : NodeId) (predicate : Search σ) (state : σ) :
    Except Fault (Option NodeId × σ) :=
  (g.visit (fun id node f =>
      if f.found.isEmpty then (true, inspect predicate id node f) else (false, f))
    root ⟨[], state⟩).map fun f => (f.found.getLast?, f.state)

/-- Some node of the tree has a kind that satisfies the predicate. -/
def hasAny {σ : Type} (g : Graph) (root : NodeId) (predicate : Search σ) (state : σ) :
    Except Fault (Bool × σ) :=
  (g.findFirst root predicate state).map fun r => (r.1.isSome, r.2)

/-- The nodes of the tree, each before its owned children. -/
def preorderWithin (g : Graph) : (depth : Nat) → NodeId → List NodeId
  | 0, _ => []
  | depth + 1, id => id :: (g.ownedChildren id).flatMap (g.preorderWithin depth)

/-- The nodes of the tree of a node, each before its owned children. -/
def preorder (g : Graph) (root : NodeId) : List NodeId := g.preorderWithin g.size root

end SyntaxGraph.Graph
