import SyntaxGraph.Construction
import SyntaxGraph.Context

/-!
# Steps on a context

A step may add names and nodes to a context. It can fail in three ways: an
operation on the graph is refused, there is no room for a text in its shard, or
there is no room for a node in the arena. A step that fails halfway leaves the
names and nodes that it has made until then.

The operations on graphs become steps here, each of them a check and then a
write. An operation that makes a node asks for room in between.
-/

namespace SyntaxGraph

/-- What stands for a name in a request: a text to be interned, or a name at hand. -/
inductive Label where
  | text (s : String)
  | name (n : Name)
  deriving DecidableEq, Repr

/-- Why a step failed. -/
inductive BuildError where
  | node (cause : NodeError)
  | names (cause : InternError)
  /-- The arena is full; so many nodes are in it. -/
  | full (count : Nat)
  deriving DecidableEq, Repr

/-- The error in words. -/
def BuildError.message : BuildError → String
  | node cause => cause.message
  | names cause => cause.message
  | full count => "node arena is full (" ++ toString count ++ " nodes)"

/-- A step that may add names and nodes to a context, and keeps them if it fails. -/
abbrev Build := EStateM BuildError Context

namespace Build

/-- The name of a text. -/
def intern (s : String) : Build Name := fun c =>
  match c.names.intern s with
  | .ok (name, names) => .ok name { c with names := names }
  | .error cause => .error (.names cause) c

/-- The name that a label stands for. -/
def resolve : Label → Build Name
  | .text s => intern s
  | .name n => pure n

/-- The kind with its label, if it has one, made a name. -/
def resolveKind (kind : Kind Label) : Build (Kind Name) :=
  match kind.name? with
  | none => pure (kind.map fun _ => .empty)
  | some label => do
    let name ← resolve label
    return kind.map fun _ => name

/-- A check on the graph, before it is written. -/
def check {α : Type} (question : Graph → Except NodeError α) : Build α := fun c =>
  match question c.graph with
  | .ok answer => .ok answer c
  | .error cause => .error (.node cause) c

/-- Writes the graph. -/
def write (change : Graph → Graph) : Build Unit := fun c =>
  .ok () { c with graph := change c.graph }

/-- The id of a new node. -/
def allocate : Build NodeId := fun c =>
  match c.graph.newId? with
  | some id => .ok id c
  | none => .error (.full c.graph.size) c

/-- Begins a node. -/
def begin (kind : Kind Name) (span : Span) : Build NodeId := do
  let id ← allocate
  write (·.begin kind span)
  return id

/-- Adds a finished node. -/
def insert (kind : Kind Name) (children : List Edge) (span : Span) : Build NodeId := do
  let id ← allocate
  write (·.insert kind children span)
  return id

/-- Makes a finished node with all its children. -/
def create (kind : Kind Name) (children : List Edge) (span : Span) : Build NodeId := do
  check (·.checkCreate kind children)
  insert kind children span

/-- Adds a child to a node under construction. -/
def pushChild (parent : NodeId) (e : Edge) : Build Unit := do
  check (·.checkPush parent e)
  write (·.addChild parent e)

/-- Finishes a node. -/
def freeze (id : NodeId) : Build Unit := do
  check (·.checkFreeze id)
  write (·.finish id)

/-- Replaces a child and answers the edge that was there. -/
def replaceChild (parent : NodeId) (index : Nat) (e : Edge) : Build Edge := do
  let old ← check (·.checkReplace parent index e)
  if old ≠ e then write (·.setChild parent index old e)
  return old

end Build

end SyntaxGraph
