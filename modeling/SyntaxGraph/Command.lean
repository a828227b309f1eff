import SyntaxGraph.Blueprint.Basic

/-!
# Commands

Everything that changes a context, short of a pass over a tree, is a command.
Running one answers what it made or found, or why it failed, and the context as
it is afterwards.
-/

namespace SyntaxGraph

/-- What makes a node. -/
inductive Creation where
  /-- Begins a node. -/
  | begin (kind : Kind Label)
  /-- Makes what a blueprint says. -/
  | build (plan : Blueprint)
  /-- Makes a reference to a declaration. -/
  | refer (declaration : NodeId)
  deriving DecidableEq, Repr

/-- Makes a node that comes from the given place of the source. -/
def Creation.run (what : Creation) (span : Span) : Build NodeId :=
  match what with
  | .begin kind => do
    let kind ← Build.resolveKind kind
    Build.begin kind span
  | .build plan => plan.build span
  | .refer declaration => Build.declarationRef declaration span

/-- What can be done to a context. -/
inductive Command where
  /-- Makes a node. -/
  | make (what : Creation) (span : Span)
  /-- Interns a text. -/
  | intern (text : String)
  /-- Adds a child to a node under construction. -/
  | push (parent : NodeId) (e : Edge)
  /-- Finishes a node. -/
  | freeze (id : NodeId)
  /-- Replaces a child. -/
  | replace (parent : NodeId) (index : Nat) (e : Edge)
  deriving DecidableEq, Repr

/-- What a command answers. -/
inductive Reply where
  | made (id : NodeId)
  | named (name : Name)
  | done
  | replaced (old : Edge)
  deriving DecidableEq, Repr

/-- Runs a command. -/
def Command.run (command : Command) : Build Reply :=
  match command with
  | .make what span => do return .made (← what.run span)
  | .intern text => do return .named (← Build.intern text)
  | .push parent e => do
    Build.pushChild parent e
    return .done
  | .freeze id => do
    Build.freeze id
    return .done
  | .replace parent index e => do return .replaced (← Build.replaceChild parent index e)

end SyntaxGraph
