import SyntaxGraph.Ownership
import SyntaxGraph.Resolution

/-!
# Building and changing a graph

A node is made in one step, with all its children, or it is begun, given its
children one by one, and frozen. A frozen node keeps its number of children;
each of them can be replaced by another.

Every operation is a check followed by a write. The check reads the graph and
says why the operation is refused, if it is; the write changes the graph. So an
operation that is refused leaves no trace. Whether there is room in the arena for
a node that a write adds is not for the checks to say.
-/

namespace SyntaxGraph.Graph

/-! ## Checks -/

/-- Refused if the condition holds. -/
def refuseIf (refused : Bool) (e : NodeError) : Except NodeError Unit :=
  if refused then .error e else .ok ()

/-- A reading for the sake of a change. -/
def reading {α : Type} (answer : Except Fault α) : Except NodeError α :=
  answer.mapError .fault

/-- A node that an operation is asked to work on. -/
def known (g : Graph) (id : NodeId) : Except NodeError Node :=
  match g.node? id with
  | some node => .ok node
  | none => .error (.unknownNode id)

/-- There is a slot at the position, and the node is of the category that the slot asks for. -/
def checkSlot (g : Graph) (kind : Kind Name) (index : Nat) (target : NodeId) :
    Except NodeError Unit :=
  match kind.layout.slot index with
  | none => .error (.arityMismatch kind.variant kind.layout (index + 1))
  | some expected => do
    let found := (← g.known target).category
    refuseIf (found ≠ expected) (.childCategory kind.variant index expected found)

/-- The node, which has to be there, is finished and has no owner. -/
def checkFree (g : Graph) (child : NodeId) : Except NodeError Unit := do
  let node ← reading (g.read child)
  refuseIf (!node.frozen) (.childNotFrozen child)
  match node.parent with
  | some owner => .error (.alreadyOwned child owner)
  | none => .ok ()

/-- The node is finished, has no owner and is not above its owner to be. -/
def checkAdoption (g : Graph) (parent child : NodeId) : Except NodeError Unit := do
  g.checkFree child
  let above ← reading (g.isAbove child parent)
  refuseIf above (.ownershipCycle parent child)

/-- What the edge owns, if it owns something, can be owned by `parent`. -/
def checkEdge (g : Graph) (parent : NodeId) (e : Edge) : Except NodeError Unit :=
  match e with
  | .owned child => g.checkAdoption parent child
  | .ref _ => .ok ()

/-- The number of children is one that the kind accepts. -/
def checkArity (kind : Kind Name) (count : Nat) : Except NodeError Unit :=
  refuseIf (!kind.layout.acceptsLength count) (.arityMismatch kind.variant kind.layout count)

/-- The node is not finished. -/
def checkOpen (id : NodeId) (node : Node) : Except NodeError Unit :=
  refuseIf node.frozen (.frozen node.kind.variant id)

/-- The child can be added to the node. -/
def checkPush (g : Graph) (parent : NodeId) (e : Edge) : Except NodeError Unit := do
  let node ← g.known parent
  checkOpen parent node
  g.checkSlot node.kind node.children.length e.target
  g.checkEdge parent e

/-- The node can be finished. -/
def checkFreeze (g : Graph) (id : NodeId) : Except NodeError Unit := do
  let node ← g.known id
  checkOpen id node
  checkArity node.kind node.children.length

/-- The edges after `earlier` fit the slots of the kind, and what they own is free and owned
once. -/
def checkChildren (g : Graph) (kind : Kind Name) :
    (earlier : List Edge) → List Edge → Except NodeError Unit
  | _, [] => .ok ()
  | earlier, e :: rest => do
    g.checkSlot kind earlier.length e.target
    match e with
    | .owned child =>
      g.checkFree child
      refuseIf (e ∈ earlier) (.duplicateChild child)
    | .ref _ => .ok ()
    g.checkChildren kind (earlier ++ [e]) rest

/-- A node of the kind can be made with these children. -/
def checkCreate (g : Graph) (kind : Kind Name) (children : List Edge) : Except NodeError Unit := do
  checkArity kind children.length
  g.checkChildren kind [] children

/-- The child at the position can be replaced; the answer is what it is now. -/
def checkReplace (g : Graph) (parent : NodeId) (index : Nat) (e : Edge) :
    Except NodeError Edge := do
  let node ← g.known parent
  match node.children[index]? with
  | none => .error (.indexOutOfBounds node.kind.variant index node.children.length)
  | some old =>
    if old = e then return old
    g.checkSlot node.kind index e.target
    g.checkEdge parent e
    if ← reading (g.isResolved old.target) then
      let resolved ← reading (g.isResolved e.target)
      refuseIf (!resolved) (.resolutionRegressed parent index)
    return old

/-! ## Writes -/

/-- The graph with a new node that is under construction. -/
def begin (g : Graph) (kind : Kind Name) (span : Span) : Graph :=
  g.push ⟨kind, span, [], none, false⟩

/-- The graph with one more child of a node. -/
def addChild (g : Graph) (parent : NodeId) (e : Edge) : Graph :=
  (g.setOwner e (some parent)).modify parent fun node =>
    { node with children := node.children ++ [e] }

/-- The graph with a node finished. -/
def finish (g : Graph) (id : NodeId) : Graph := g.modify id fun node => { node with frozen := true }

/-- The graph with a new, finished node that owns what the edges own. -/
def insert (g : Graph) (kind : Kind Name) (children : List Edge) (span : Span) : Graph :=
  (children.foldl (fun h e => h.setOwner e (some g.nextId)) g).push
    ⟨kind, span, children, none, true⟩

/-- The graph with a child of a node replaced. What the old edge owned is free, what the new one
owns is the node's. -/
def setChild (g : Graph) (parent : NodeId) (index : Nat) (old new : Edge) : Graph :=
  ((g.setOwner old none).setOwner new (some parent)).modify parent fun node =>
    { node with children := node.children.set index new }

end SyntaxGraph.Graph
