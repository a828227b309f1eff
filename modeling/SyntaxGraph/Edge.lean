/-!
# Node ids and edges

A node is named by its place in the arena. An edge from a node to a child either
owns the child, and then it is the only edge that does, or merely refers to it.
-/

namespace SyntaxGraph

/-- The place of a node in the arena of its graph, in the order of allocation. -/
structure NodeId where
  index : Nat
  deriving DecidableEq, Repr, Hashable

namespace NodeId

/-- The id that never names a node: the largest 32-bit word. -/
def invalid : NodeId := ⟨4294967295⟩

instance : Inhabited NodeId := ⟨invalid⟩

/-- The id may name a node. -/
def isValid (id : NodeId) : Bool := id != invalid

/-- Ids are ordered as nodes are allocated. -/
def before (a b : NodeId) : Bool := a.index < b.index

/-- The id as it stands in messages. -/
def text (id : NodeId) : String := "#" ++ toString id.index

/-- The id for a reader who debugs a pass. -/
def debugText (id : NodeId) : String :=
  if id.isValid then "NodeId(" ++ toString id.index ++ ")" else "NodeId::INVALID"

end NodeId

/-- The connection of a node with one child. -/
inductive Edge where
  | owned (child : NodeId)
  | ref (target : NodeId)
  deriving DecidableEq, Repr

namespace Edge

/-- The node that the edge leads to. -/
def target : Edge → NodeId
  | owned child => child
  | ref target => target

/-- The edge owns its target. -/
def isOwned : Edge → Bool
  | owned _ => true
  | ref _ => false

/-- The node that the edge owns, if it owns one. -/
def child? : Edge → Option NodeId
  | owned child => some child
  | ref _ => none

/-- The word for an edge of this sort in the outside world. -/
def label : Edge → String
  | owned _ => "Owned"
  | ref _ => "Ref"

/-- The edge for a reader who debugs a pass. -/
def debugText (e : Edge) : String := e.label ++ "(" ++ e.target.debugText ++ ")"

@[simp] theorem child?_eq_some {e : Edge} {id : NodeId} : e.child? = some id ↔ e = owned id := by
  cases e <;> simp [child?]

end Edge

end SyntaxGraph
