import SyntaxGraph.Context

/-!
# Workspaces

A workspace holds any number of compilation units. Each has a graph of its own;
the table of names may be its own as well, or that of an earlier unit.
-/

namespace SyntaxGraph

/-- A graph, and which table its names come from. -/
structure CompilationUnit where
  graph : Graph
  table : Nat
  deriving Repr

/-- Compilation units and the tables that they share. -/
structure Workspace where
  units : Array CompilationUnit
  tables : Array Interner
  deriving Repr

namespace Workspace

/-- The workspace with one unit, which has a table of its own. -/
def fresh : Workspace := ⟨#[⟨.empty, 0⟩], #[.fresh]⟩

/-- A unit with its table. -/
def context? (w : Workspace) (unit : Nat) : Option Context := do
  let u ← w.units[unit]?
  let names ← w.tables[u.table]?
  return ⟨u.graph, names⟩

/-- The workspace with one more unit, which has a table of its own or shares that of another. A
unit that is not there shares nothing. -/
def addUnit (w : Workspace) (share : Option Nat) : Workspace :=
  match share.bind (w.units[·]?) with
  | some other => { w with units := w.units.push ⟨.empty, other.table⟩ }
  | none => ⟨w.units.push ⟨.empty, w.tables.size⟩, w.tables.push .fresh⟩

/-- The workspace with another graph and table for a unit. -/
def put (w : Workspace) (unit : Nat) (c : Context) : Workspace :=
  match w.units[unit]? with
  | some u => ⟨w.units.set! unit { u with graph := c.graph }, w.tables.set! u.table c.names⟩
  | none => w

/-- Lets a step work on a unit. -/
def update {α : Type} (w : Workspace) (unit : Nat) (step : Context → α × Context) :
    Option (α × Workspace) :=
  (w.context? unit).map fun c =>
    let (answer, c) := step c
    (answer, w.put unit c)

end Workspace

end SyntaxGraph
