import SyntaxGraph.Interner
import SyntaxGraph.NodeError
import SyntaxGraph.NodeSet
import SyntaxGraph.Span

/-!
# Graphs

A graph is an arena of nodes. A node has a kind, the range of its source, its
edges to children in order, the node that owns it, and a mark that says that it
is finished: from then on its children can be replaced one for one but not
added.

A node is read by its id. Ids are never given back, so an id that once named a
node names it for good. The functions that write say what they change of one
node and leave every other node alone.

An arena has a place for every id but the one that never names a node. Whether
there is room for another node is asked before one is added.
-/

namespace SyntaxGraph

/-- A node of a graph. -/
structure Node where
  kind : Kind Name
  span : Span
  children : List Edge
  /-- The node that owns this one, if one does. -/
  parent : Option NodeId
  /-- The node is finished. -/
  frozen : Bool
  deriving DecidableEq, Repr

namespace Node

/-- The category of the kind of a node. -/
def category (n : Node) : Category := n.kind.category

/-- The nodes that the children are, owned or not. -/
def targets (n : Node) : List NodeId := n.children.map Edge.target

/-- The children that the node owns, in order. -/
def ownedChildren (n : Node) : List NodeId := n.children.filterMap Edge.child?

/-- The node that a child is. -/
def target? (n : Node) (index : Nat) : Option NodeId := n.children[index]?.map Edge.target

end Node

/-- Nodes by their ids. -/
structure Graph where
  nodes : Array Node
  deriving DecidableEq, Repr

namespace Graph

/-- The graph without nodes. -/
def empty : Graph := ⟨#[]⟩

instance : Inhabited Graph := ⟨empty⟩

/-- How many nodes there are. -/
def size (g : Graph) : Nat := g.nodes.size

/-- The place behind the last node. -/
def nextId (g : Graph) : NodeId := ⟨g.size⟩

/-- How many nodes an arena can hold. The place behind them has the id that never names a node. -/
def capacity : Nat := NodeId.invalid.index

/-- There is room for this many more nodes. -/
def HasRoom (g : Graph) (count : Nat) : Prop := g.size + count ≤ capacity

instance (g : Graph) (count : Nat) : Decidable (g.HasRoom count) :=
  inferInstanceAs (Decidable (g.size + count ≤ capacity))

/-- The id of a new node, if there is room for one. -/
def newId? (g : Graph) : Option NodeId := if g.HasRoom 1 then some g.nextId else none

/-- The node of an id, if there is one. -/
def node? (g : Graph) (id : NodeId) : Option Node := g.nodes[id.index]?

/-- The id names a node. -/
def contains (g : Graph) (id : NodeId) : Bool := id.index < g.size

instance : Membership NodeId Graph := ⟨fun g id => id.index < g.size⟩

instance (id : NodeId) (g : Graph) : Decidable (id ∈ g) :=
  inferInstanceAs (Decidable (id.index < g.size))

/-- Every id that names a node, in order of allocation. -/
def ids (g : Graph) : List NodeId := (List.range g.size).map NodeId.mk

/-- The node of an id that has to name one. -/
def read (g : Graph) (id : NodeId) : Except Fault Node :=
  match g.node? id with
  | some node => .ok node
  | none => .error (.stray id)

/-- The edges of a node; an id without a node has none. -/
def edges (g : Graph) (id : NodeId) : List Edge := ((g.node? id).map Node.children).getD []

/-- The edge at a position, if there is one. -/
def edge? (g : Graph) (id : NodeId) (index : Nat) : Option Edge := (g.edges id)[index]?

/-- The kind of a node. -/
def kind? (g : Graph) (id : NodeId) : Option (Kind Name) := (g.node? id).map Node.kind

/-- The owner of a node. -/
def parent? (g : Graph) (id : NodeId) : Option NodeId := (g.node? id).bind Node.parent

/-- The children that a node owns, in order. -/
def ownedChildren (g : Graph) (id : NodeId) : List NodeId := (g.edges id).filterMap Edge.child?

/-- The node is finished. -/
def isFrozen (g : Graph) (id : NodeId) : Bool := ((g.node? id).map Node.frozen).getD false

/-- The graph with one more node, behind the last one. -/
def push (g : Graph) (node : Node) : Graph := ⟨g.nodes.push node⟩

/-- The graph with one node changed. -/
def modify (g : Graph) (id : NodeId) (f : Node → Node) : Graph := ⟨g.nodes.modify id.index f⟩

/-- The graph with another owner for a node. -/
def setParent (g : Graph) (id : NodeId) (parent : Option NodeId) : Graph :=
  g.modify id fun node => { node with parent := parent }

/-- The graph in which everything that an edge owns, which may be nothing, has the given owner. -/
def setOwner (g : Graph) (e : Edge) (parent : Option NodeId) : Graph :=
  match e.child? with
  | some child => g.setParent child parent
  | none => g

theorem mem_def {g : Graph} {id : NodeId} : id ∈ g ↔ id.index < g.size := Iff.rfl

theorem mem_iff_node? {g : Graph} {id : NodeId} : id ∈ g ↔ ∃ node, g.node? id = some node := by
  rw [← Option.isSome_iff_exists]
  simp [mem_def, node?, size]

theorem not_mem_iff_node? {g : Graph} {id : NodeId} : id ∉ g ↔ g.node? id = none := by
  simp [mem_def, node?, size]

@[simp] theorem size_push (g : Graph) (node : Node) : (g.push node).size = g.size + 1 := by
  simp [size, push]

@[simp] theorem size_modify (g : Graph) (id : NodeId) (f : Node → Node) :
    (g.modify id f).size = g.size := by
  simp [size, modify]

@[simp] theorem size_setParent (g : Graph) (id : NodeId) (parent : Option NodeId) :
    (g.setParent id parent).size = g.size := by
  simp [setParent]

@[simp] theorem size_setOwner (g : Graph) (e : Edge) (parent : Option NodeId) :
    (g.setOwner e parent).size = g.size := by
  cases e <;> simp [setOwner, Edge.child?]

/-- The new node is where it was promised, and no other node has changed. -/
theorem node?_push (g : Graph) (node : Node) (id : NodeId) :
    (g.push node).node? id = if id = g.nextId then some node else g.node? id := by
  rcases id with ⟨i⟩
  simp [node?, push, nextId, size, Array.getElem?_push]

/-- Changing a node changes no other. -/
theorem node?_modify (g : Graph) (a : NodeId) (f : Node → Node) (b : NodeId) :
    (g.modify a f).node? b = if a = b then (g.node? b).map f else g.node? b := by
  rcases a with ⟨a⟩
  rcases b with ⟨b⟩
  by_cases h : a = b <;> simp [node?, modify, Array.getElem?_modify, h]

end Graph

end SyntaxGraph
