import SyntaxGraph.Edge
import SyntaxGraph.Layout

/-!
# Why an operation is refused

An error says which rule of the graph a caller was about to break, and names the
nodes that show it. Nothing is changed by an operation that is refused.

A *fault* is no such rule: it says that an operation could not be carried out on
a graph whose edges lead out of the arena or whose owners run in a circle. No
sequence of operations makes such a graph.
-/

namespace SyntaxGraph

/-- What can stop the reading of a graph. -/
inductive Fault where
  /-- The reading came to an id that names no node. -/
  | stray (id : NodeId)
  /-- The reading went on for longer than there are nodes to read. -/
  | unending
  deriving DecidableEq, Repr

/-- What can stop a change of a graph. -/
inductive NodeError where
  /-- There is no room for this many children, or more of them are needed. -/
  | arityMismatch (variant : String) (layout : Layout) (found : Nat)
  /-- The child at a position is of the wrong category. -/
  | childCategory (variant : String) (index : Nat) (expected found : Category)
  /-- There is no child at the position. -/
  | indexOutOfBounds (variant : String) (index count : Nat)
  /-- The id names no node. -/
  | unknownNode (node : NodeId)
  /-- The node is finished and takes no more children. -/
  | frozen (variant : String) (node : NodeId)
  /-- A node that is not finished cannot be owned. -/
  | childNotFrozen (child : NodeId)
  /-- A node has one owner only. -/
  | alreadyOwned (child owner : NodeId)
  /-- A node cannot fill two slots of one owner. -/
  | duplicateChild (child : NodeId)
  /-- A node cannot be owned by itself or by something below it. -/
  | ownershipCycle (parent child : NodeId)
  /-- There is no integer type of this width. -/
  | invalidIntegerWidth (width : UInt16)
  /-- A resolved child cannot be replaced by an unresolved one. -/
  | resolutionRegressed (parent : NodeId) (index : Nat)
  /-- The graph could not be read. -/
  | fault (cause : Fault)
  deriving DecidableEq, Repr

/-- The fault in words. -/
def Fault.message : Fault → String
  | stray id => id.text ++ " lies outside the arena"
  | unending => "the walk does not end"

namespace NodeError

/-- The error in words. -/
def message : NodeError → String
  | arityMismatch variant layout found =>
    variant ++ " takes " ++ layout.arity ++ " children, found " ++ toString found
  | childCategory variant index expected found =>
    variant ++ " child " ++ toString index ++ " must be a " ++ expected.label ++ ", found a " ++
      found.label
  | indexOutOfBounds variant index count =>
    variant ++ " child index " ++ toString index ++ " out of bounds (has " ++ toString count ++
      " children)"
  | unknownNode node => node.text ++ " does not name a node of this context"
  | frozen variant node =>
    variant ++ " " ++ node.text ++ " is frozen; only child replacement is allowed"
  | childNotFrozen child =>
    "cannot take ownership of " ++ child.text ++ ": it is still under construction"
  | alreadyOwned child owner => child.text ++ " is already owned by " ++ owner.text
  | duplicateChild child =>
    child.text ++ " appears twice among the owned children of one node"
  | ownershipCycle parent child =>
    "making " ++ child.text ++ " a child of " ++ parent.text ++ " would create an ownership cycle"
  | invalidIntegerWidth width =>
    "unsupported integer width " ++ toString width.toNat ++ "; expected 8, 16, 32 or 64"
  | resolutionRegressed parent index =>
    "replacing child " ++ toString index ++ " of " ++ parent.text ++
      " would make a resolved subtree unresolved"
  | fault cause => cause.message

end NodeError

end SyntaxGraph
