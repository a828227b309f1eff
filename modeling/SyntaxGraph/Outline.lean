import SyntaxGraph.Context

/-!
# Outlines

An outline shows the owned tree of a node, one item to a line: a node with its
id and description, below it and further in its children in order. A reference
is shown by an arrow to its target and is not followed, so an outline ends
whatever circles there are. It never fails: a node that is not there is shown as
missing.
-/

namespace SyntaxGraph

/-- One item of an outline. -/
inductive OutlineItem where
  | node (id : NodeId) (description : String)
  | reference (target : NodeId)
  | missing
  deriving DecidableEq, Repr

/-- An item at its depth below the root. -/
structure OutlineLine where
  depth : Nat
  item : OutlineItem
  deriving DecidableEq, Repr

/-- The item in words. -/
def OutlineItem.text : OutlineItem → String
  | node id description => id.text ++ " " ++ description
  | reference target => "-> " ++ target.text
  | missing => Context.missingText

/-- The item on a line of its own, two blanks further in for each step of depth. -/
def OutlineLine.text (l : OutlineLine) : String :=
  String.ofList (List.replicate (2 * l.depth) ' ') ++ l.item.text ++ "\n"

namespace Context

/-- The lines for the tree of a node that lies `depth` below the root, no more than `levels` levels
of it. -/
def outlineWithin (c : Context) : (levels depth : Nat) → NodeId → List OutlineLine
  | 0, _, _ => []
  | levels + 1, depth, id =>
    match c.graph.node? id with
    | none => [⟨depth, .missing⟩]
    | some node =>
      ⟨depth, .node id (c.describeKind node.kind)⟩ ::
        node.children.flatMap fun
          | .owned child => c.outlineWithin levels (depth + 1) child
          | .ref target => [⟨depth + 1, .reference target⟩]

/-- The lines for the tree of a node. -/
def outline (c : Context) (root : NodeId) : List OutlineLine :=
  c.outlineWithin (c.graph.size + 1) 0 root

/-- The text of the outline. -/
def dump (c : Context) (root : NodeId) : String := String.join ((c.outline root).map (·.text))

end Context

end SyntaxGraph
