import SyntaxGraph.Build

/-!
# Passes over an owned tree

A pass is offered the nodes of a tree, each before its owned children, and
answers what is to happen there: go on below the node, leave the tree below it
alone, or put another node in its place. It may have a memory of its own and may
make nodes while it decides.

The edge of a slot is read when the pass comes to it, so the pass sees what was
replaced before. The number of slots is read once, when a node is entered. An
error ends the pass, and what was replaced before it stays.
-/

namespace SyntaxGraph

/-- What is to happen with an offered node. -/
inductive Action where
  | descend
  | prune
  | replace (e : Edge)
  deriving DecidableEq, Repr

/-- Why a pass ended early: the graph refused a replacement, or the pass gave up. -/
inductive PassError (ε : Type) where
  | node (cause : NodeError)
  | gaveUp (cause : ε)
  deriving DecidableEq, Repr

/-- A context, and the memory of the pass that works on it. -/
structure PassState (σ : Type) where
  context : Context
  memory : σ

/-- A step of a pass. -/
abbrev PassM (σ ε : Type) := EStateM (PassError ε) (PassState σ)

/-- Decides what happens with a node. -/
abbrev Pass (σ ε : Type) := NodeId → PassM σ ε Action

/-- The root that a pass leaves behind, and how many edges it changed. -/
structure PassOutcome where
  root : NodeId
  replacements : Nat
  deriving DecidableEq, Repr

namespace PassM

variable {σ ε : Type}

/-- Reads the graph. -/
def ask {α : Type} (question : Graph → Except Fault α) : PassM σ ε α := fun s =>
  match question s.context.graph with
  | .ok answer => .ok answer s
  | .error fault => .error (.node (.fault fault)) s

/-- Ends the pass over a fault. -/
def stop {α : Type} (fault : Fault) : PassM σ ε α := throw (.node (.fault fault))

/-- Lets a step work on the context of the pass; `asError` says what its errors mean to the pass. -/
def within {α : Type} (asError : BuildError → PassError ε) (step : Build α) : PassM σ ε α :=
  fun s =>
    match step s.context with
    | .ok answer c => .ok answer { s with context := c }
    | .error cause c => .error (asError cause) { s with context := c }

/-- Replaces a child and tells how many edges that changed. -/
def replaceChild (parent : NodeId) (index : Nat) (e : Edge) : PassM σ ε Nat := fun s =>
  match s.context.graph.checkReplace parent index e with
  | .error cause => .error (.node cause) s
  | .ok old =>
    if old = e then .ok 0 s
    else
      let change (g : Graph) := g.setChild parent index old e
      .ok 1 { s with context := { s.context with graph := change s.context.graph } }

end PassM

namespace Pass

variable {σ ε : Type}

/-- Offers what a slot owns and goes on `below` it, or below what takes its place. How a child is
replaced is left open. -/
def atSlotBy (replace : NodeId → Nat → Edge → PassM σ ε Nat) (offer : Pass σ ε)
    (below : NodeId → PassM σ ε Nat) (parent : NodeId) (changed index : Nat) : PassM σ ε Nat := do
  match ← PassM.ask fun g => .ok (g.edge? parent index) with
  | some (.owned child) =>
    match ← offer child with
    | .prune => return changed
    | .descend => return changed + (← below child)
    | .replace new =>
      let changed := changed + (← replace parent index new)
      match new with
      | .owned child => return changed + (← below child)
      | .ref _ => return changed
  | _ => return changed

/-- Offers what a slot owns, and replaces it if that is the answer. -/
def atSlot (offer : Pass σ ε) (below : NodeId → PassM σ ε Nat) (parent : NodeId)
    (changed index : Nat) : PassM σ ε Nat :=
  offer.atSlotBy PassM.replaceChild below parent changed index

/-- Offers what the slots of a node own, one slot after the other, and tells how many edges
changed. The pass goes no further down than `depth` nodes. How a child is replaced is left open. -/
def runBelowBy (replace : NodeId → Nat → Edge → PassM σ ε Nat) (offer : Pass σ ε) :
    (depth : Nat) → NodeId → PassM σ ε Nat
  | 0, _ => PassM.stop .unending
  | depth + 1, parent => do
    let node ← PassM.ask (·.read parent)
    (List.range node.children.length).foldlM
      (offer.atSlotBy replace (offer.runBelowBy replace depth) parent) 0

/-- Offers what the slots of a node own, and replaces what it is to replace. -/
def runBelow (offer : Pass σ ε) (depth : Nat) (parent : NodeId) : PassM σ ε Nat :=
  offer.runBelowBy PassM.replaceChild depth parent

/-- Offers the root and goes on `below` it, or below what takes its place. A reference in its place
ends the pass. -/
def atRoot (offer : Pass σ ε) (below : NodeId → PassM σ ε Nat) (root : NodeId) :
    PassM σ ε PassOutcome := do
  match ← offer root with
  | .prune => return ⟨root, 0⟩
  | .descend => return ⟨root, ← below root⟩
  | .replace (.ref target) => return ⟨target, if target = root then 0 else 1⟩
  | .replace (.owned new) => return ⟨new, (if new = root then 0 else 1) + (← below new)⟩

/-- Offers the nodes of a tree, from the root on, at most `depth` nodes deep. How a child is
replaced is left open. -/
def runBy (replace : NodeId → Nat → Edge → PassM σ ε Nat) (offer : Pass σ ε) (depth : Nat)
    (root : NodeId) : PassM σ ε PassOutcome :=
  offer.atRoot (offer.runBelowBy replace depth) root

/-- Offers the nodes of a tree and replaces what it is to replace. -/
def run (offer : Pass σ ε) (depth : Nat) (root : NodeId) : PassM σ ε PassOutcome :=
  offer.runBy PassM.replaceChild depth root

end Pass

end SyntaxGraph
