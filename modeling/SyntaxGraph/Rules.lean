import SyntaxGraph.Pass

/-!
# Patterns and rules

A pattern is a list of conditions on the kind of a node, each of which may be
left out. A rule joins a pattern, and conditions on the node itself, with what is
to be done where they hold. Rules make a pass: the first that applies to a node
decides, and without one the pass goes on below the node.

Conditions are looked at in a fixed order and no further than the first that
fails. This shows in the table of names, because the kind in a pattern may hold a
text, which is interned whenever the pattern comes to it.
-/

namespace SyntaxGraph

/-- Conditions on the kind of a node. -/
structure Pattern where
  kind : Option (Kind Label)
  variant : Option String
  category : Option Category
  placeholder : Option Bool
  producesValue : Option Bool
  deriving Repr

namespace Pattern

/-- The kind with its label, if it has one, made a name. A text that does not fit into the table
makes no name. -/
def nameKind? (kind : Kind Label) (names : Interner) : Option (Kind Name) × Interner :=
  match kind.name? with
  | none => (some (kind.map fun _ => .empty), names)
  | some (.name n) => (some (kind.map fun _ => n), names)
  | some (.text s) =>
    match names.intern s with
    | .ok (n, names) => (some (kind.map fun _ => n), names)
    | .error _ => (none, names)

/-- An optional condition holds if it is left out. -/
def agrees {α : Type} [DecidableEq α] (wanted : Option α) (found : α) : Bool :=
  match wanted with
  | some wanted => wanted = found
  | none => true

/-- The conditions that need no table. -/
def agreesPlainly (p : Pattern) (kind : Kind Name) : Bool :=
  agrees p.variant kind.variant && agrees p.category kind.category &&
    agrees p.placeholder kind.isPlaceholder && agrees p.producesValue kind.producesValue

/-- The kind meets the conditions. -/
def holds (p : Pattern) (kind : Kind Name) (names : Interner) : Bool × Interner :=
  match p.kind with
  | none => (p.agreesPlainly kind, names)
  | some wanted =>
    let (wanted, names) := nameKind? wanted names
    (wanted = some kind && p.agreesPlainly kind, names)

end Pattern

/-- What a rule does with a node. -/
inductive RuleAction where
  | descend
  | prune
  | replace (e : Edge)
  /-- Replaces the node by an edge to itself. -/
  | self (owned : Bool)
  /-- Makes a node and replaces the offered one by it. -/
  | make (owned : Bool) (step : Build NodeId)

/-- Where a rule applies, and what it does. -/
structure Rule where
  id : Option NodeId
  resolved : Option Bool
  pattern : Pattern
  action : RuleAction

namespace Rule

/-- The nodes that were offered to a pass, the last one first. -/
abbrev Offered := List NodeId

/-- A step of a pass that is made of rules. -/
abbrev RuleM := PassM Offered BuildError

/-- An edge that owns a node, or only refers to it. -/
def edgeTo (owned : Bool) (id : NodeId) : Edge := if owned then .owned id else .ref id

/-- The rule applies to the node. -/
def applies (r : Rule) (id : NodeId) : RuleM Bool := do
  if !Pattern.agrees r.id id then return false
  if let some wanted := r.resolved then
    let found ← PassM.ask (·.isResolved id)
    if found ≠ wanted then return false
  let node ← PassM.ask (·.read id)
  modifyGet fun s =>
    let (answer, names) := r.pattern.holds node.kind s.context.names
    (answer, { s with context := { s.context with names := names } })

/-- What the rule makes of the node. -/
def act (action : RuleAction) (id : NodeId) : RuleM Action :=
  match action with
  | .descend => return .descend
  | .prune => return .prune
  | .replace e => return .replace e
  | .self owned => return .replace (edgeTo owned id)
  | .make owned step => do return .replace (edgeTo owned (← PassM.within .gaveUp step))

/-- What the first rule that applies makes of the node. -/
def firstOf : List Rule → NodeId → RuleM Action
  | [], _ => return .descend
  | r :: rest, id => do
    if ← r.applies id then act r.action id else firstOf rest id

/-- The pass that goes by the rules and remembers what it was offered. -/
def pass (rules : List Rule) : Pass Offered BuildError := fun id => do
  modify fun s => { s with memory := id :: s.memory }
  firstOf rules id

end Rule

end SyntaxGraph
