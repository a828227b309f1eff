import SyntaxGraph.Graph.Unseen

/-!
# Resolution

A node is resolved when no placeholder can be reached from it, through owned
children and references alike. A self reference counts as resolved and is not
looked into: the record that it names may still be on its way.

Graphs may be cyclic, so a walk enters each node once. A node that was entered
before counts as resolved: if it is not, the walk finds that out elsewhere. One
set of entered nodes can serve several questions in a row.

An answer of "no" means "not yet", never a failure.
-/

namespace SyntaxGraph.Graph

/-- A walk looks at every edge of a node that it enters. -/
def fanOut (g : Graph) (id : NodeId) : Nat := (g.edges id).length

/-- Entering a node trades what it weighs for its children. -/
theorem unseen_enter {g : Graph} {seen : NodeSet} {id : NodeId} {node : Node}
    (hn : g.node? id = some node) (hs : id ∉ seen) :
    g.unseen (seen.insert id) g.fanOut + node.children.length = g.unseen seen g.fanOut := by
  have hw : g.fanOut id = node.children.length := by simp [fanOut, edges, hn]
  rw [← hw]
  exact unseen_insert g.fanOut (mem_iff_node?.mpr ⟨node, hn⟩) hs

/-- No placeholder is met from the pending nodes on, which are looked at in order. The walk stops at
the first placeholder; the answer comes with the nodes entered so far. -/
def settle (g : Graph) (pending : List NodeId) (seen : NodeSet) : Except Fault (Bool × NodeSet) :=
  match pending with
  | [] => .ok (true, seen)
  | id :: rest =>
    match _found : g.node? id with
    | none => .error (.stray id)
    | some node =>
      if _entered : node.kind.isSelfReference ∨ id ∈ seen then g.settle rest seen
      else if node.kind.isPlaceholder then .ok (false, seen.insert id)
      else g.settle (node.targets ++ rest) (seen.insert id)
termination_by pending.length + g.unseen seen g.fanOut
decreasing_by
  · simp
  · have := unseen_enter _found fun hm => _entered (.inr hm)
    simp [Node.targets]
    omega

/-- The node is resolved; the set holds the nodes entered by earlier questions. -/
def isResolvedFrom (g : Graph) (id : NodeId) (seen : NodeSet) : Except Fault (Bool × NodeSet) :=
  g.settle [id] seen

/-- The node is resolved. -/
def isResolved (g : Graph) (id : NodeId) : Except Fault Bool :=
  (g.isResolvedFrom id .empty).map Prod.fst

/-- The placeholders met from the pending nodes on, in the order in which they are met. A
placeholder is not looked into. -/
def placeholders (g : Graph) (pending : List NodeId) (seen : NodeSet) :
    Except Fault (List NodeId) :=
  match pending with
  | [] => .ok []
  | id :: rest =>
    match _found : g.node? id with
    | none => .error (.stray id)
    | some node =>
      if _entered : node.kind.isSelfReference ∨ id ∈ seen then g.placeholders rest seen
      else if node.kind.isPlaceholder then
        (g.placeholders rest (seen.insert id)).map (id :: ·)
      else g.placeholders (node.targets ++ rest) (seen.insert id)
termination_by pending.length + g.unseen seen g.fanOut
decreasing_by
  · simp
  · have := unseen_enter _found fun hm => _entered (.inr hm)
    simp
    omega
  · have := unseen_enter _found fun hm => _entered (.inr hm)
    simp [Node.targets]
    omega

/-- The placeholders that keep a node from being resolved. -/
def unresolvedNodes (g : Graph) (root : NodeId) : Except Fault (List NodeId) :=
  g.placeholders [root] .empty

end SyntaxGraph.Graph
