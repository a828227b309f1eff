import Mathlib.Logic.Relation
import SyntaxGraph.Proofs.Steps

/-!
# What a program can lead to

A program works on a context through commands and passes, any of which may fail.
`Leads` collects the contexts that calls in any number and order can lead to.

An invariant need not know the calls. However involved a command or a pass is,
all that it does to a graph is a sequence of five small changes, each of which
passed its check: a node is begun, given a child, finished, made at once, or one
of its children is replaced. `reachable_changes` says so, and an invariant is
proved by looking at `Change` alone.
-/

namespace SyntaxGraph

open Relation

/-! ## The five changes -/

namespace Graph

/-- One change of a graph. Its check has passed, and there is room for what it adds. -/
inductive Change : Graph → Graph → Prop where
  | begin {g : Graph} (kind : Kind Name) (span : Span) :
    g.HasRoom 1 → Change g (g.begin kind span)
  | push {g : Graph} {parent : NodeId} {e : Edge} :
    g.checkPush parent e = .ok () → Change g (g.addChild parent e)
  | freeze {g : Graph} {id : NodeId} : g.checkFreeze id = .ok () → Change g (g.finish id)
  | create {g : Graph} {kind : Kind Name} {children : List Edge} (span : Span) :
    g.HasRoom 1 → g.checkCreate kind children = .ok () → Change g (g.insert kind children span)
  | replace {g : Graph} {parent : NodeId} {index : Nat} {old e : Edge} :
    g.checkReplace parent index e = .ok old → old ≠ e → Change g (g.setChild parent index old e)

end Graph

/-! ## Changes of a context -/

/-- One change of a context: a text is interned, or the graph changes. -/
inductive Context.Change : Context → Context → Prop where
  | intern {c : Context} {s : String} {name : Name} {names : Interner} :
    c.names.intern s = .ok (name, names) → Change c { c with names := names }
  | graph {c : Context} {g : Graph} : c.graph.Change g → Change c { c with graph := g }

/-- Any number of changes of a context. -/
def Context.Changes : Context → Context → Prop := ReflTransGen Context.Change

instance : IsPreorder Context Context.Changes :=
  inferInstanceAs (IsPreorder Context (ReflTransGen Context.Change))

theorem changes_of_graph {c : Context} {g : Graph} (h : c.graph.Change g) :
    c.Changes { c with graph := g } :=
  .single (.graph h)

theorem allows_changes : Allows Context.Changes where
  intern h := .single (.intern h)
  begin kind span hroom := changes_of_graph (.begin kind span hroom)
  freeze h := changes_of_graph (.freeze h)
  create span hroom h := changes_of_graph (.create span hroom h)

/-- **A command is a sequence of changes**, also where it fails. -/
theorem Command.changes_run (cmd : Command) : Moves Context.Changes cmd.run :=
  fun _ => Command.related_run allows_changes
    (Build.moves_integerType allows_changes fun h => changes_of_graph (.push h))
    (fun _ _ _ h => changes_of_graph (.push h))
    fun _ _ _ _ _ h hne => changes_of_graph (.replace h hne)

/-! ## Calls in any number and order -/

/-- Calls lead from the one context to the other. A call is a command or a pass, and it may fail.
Whatever a pass does to a context while it decides, it does by calls as well. -/
inductive Leads : Context → Context → Prop where
  | refl (c : Context) : Leads c c
  | command {a b : Context} (cmd : Command) : Leads a b → Leads a (after cmd.run b)
  | pass {a : Context} {σ ε : Type} {s : PassState σ} (offer : Pass σ ε) (depth : Nat)
      (root : NodeId) :
    Leads a s.context → (∀ id t, Leads t.context (after (offer id) t).context) →
    Leads a (after (offer.run depth root) s).context

theorem Leads.trans {a b d : Context} (h : Leads a b) (h' : Leads b d) : Leads a d := by
  induction h' with
  | refl => exact h
  | command cmd _ ih => exact .command cmd (ih h)
  | pass offer depth root _ hoffer ih => exact .pass offer depth root (ih h) hoffer

/-- A context that calls can lead to from the one that has no nodes. -/
def Reachable (c : Context) : Prop := Leads .fresh c

/-- **Calls are sequences of changes.** -/
theorem leads_changes {a b : Context} (h : Leads a b) : a.Changes b := by
  induction h with
  | refl c => exact .refl
  | command cmd _ ih => exact ih.trans (cmd.changes_run _)
  | pass offer depth root _ _ ih hoffer =>
    refine ih.trans ?_
    -- between two offers a pass does nothing but replace children
    refine Pass.moves_run (R := fun s t => s.context.Changes t.context) hoffer ?_ depth root _
    intro parent index e t
    show t.context.Changes _
    rw [after_replaceChild]
    exact (Command.replace parent index e).changes_run t.context

theorem changes_graph {a b : Context} (h : a.Changes b) :
    ReflTransGen Graph.Change a.graph b.graph := by
  induction h with
  | refl => exact .refl
  | tail _ hstep ih =>
    cases hstep with
    | intern _ => exact ih
    | graph hc => exact ih.tail hc

/-- **A graph that a program comes to is made by changes** from the graph without nodes. -/
theorem reachable_changes {c : Context} (h : Reachable c) :
    ReflTransGen Graph.Change .empty c.graph :=
  changes_graph (leads_changes h)

/-- What every change keeps, any number of changes keeps. -/
theorem changes_invariant {Inv : Graph → Prop}
    (hchange : ∀ {g g' : Graph}, Inv g → g.Change g' → Inv g') {g g' : Graph}
    (h : ReflTransGen Graph.Change g g') (hg : Inv g) : Inv g' := by
  induction h with
  | refl => exact hg
  | tail _ hs ih => exact hchange ih hs

/-- **What holds of the empty graph and is kept by every change is an invariant.** -/
theorem reachable_invariant {Inv : Graph → Prop} (hempty : Inv .empty)
    (hchange : ∀ {g g' : Graph}, Inv g → g.Change g' → Inv g') {c : Context} (h : Reachable c) :
    Inv c.graph :=
  changes_invariant hchange (reachable_changes h) hempty

/-! ## Edges stay inside the arena -/

namespace Graph

variable {g g' : Graph}

/-- Every edge leads to a node. -/
def Closed (g : Graph) : Prop := ∀ id, ∀ e ∈ g.edges id, e.target ∈ g

theorem Closed.target_mem (h : g.Closed) {id : NodeId} {index : Nat} {e : Edge}
    (he : g.edge? id index = some e) : e.target ∈ g :=
  h id e (mem_edges_iff.mpr ⟨index, he⟩)

theorem closed_empty : Closed empty := by
  intro id e he
  simp [edges, node?_empty] at he

theorem fits_of_checkCreate {kind : Kind Name} {children : List Edge}
    (h : g.checkCreate kind children = .ok ()) {e : Edge} (he : e ∈ children) :
    ∃ index, children[index]? = some e ∧ g.Fits kind index e.target
      ∧ ∀ child, e = .owned child → g.Free child ∧ e ∉ children.take index := by
  obtain ⟨index, hi⟩ := List.mem_iff_getElem?.mp he
  exact ⟨index, hi, (checkCreate_eq_ok.mp h).2 index e hi⟩

theorem target_mem_of_checkCreate {kind : Kind Name} {children : List Edge}
    (h : g.checkCreate kind children = .ok ()) : ∀ e ∈ children, e.target ∈ g := by
  intro e he
  obtain ⟨_, _, hfits, _⟩ := fits_of_checkCreate h he
  exact hfits.mem

/-- **No change lets an edge lead out of the arena.** -/
theorem closed_change (h : Closed g) (hs : Change g g') : Closed g' := by
  cases hs with
  | begin kind span _ =>
    intro id e he
    rw [edges_begin] at he
    exact mem_begin (h id e he)
  | push hcheck =>
    rename_i parent new
    obtain ⟨node, hn, _, hfits, _⟩ := checkPush_eq_ok.mp hcheck
    intro id e he
    rw [edges_addChild (mem_iff_node?.mpr ⟨node, hn⟩)] at he
    rw [mem_addChild]
    split at he
    · rcases List.mem_append.mp he with he | he
      · exact h parent e he
      · rw [List.mem_singleton.mp he]
        exact hfits.mem
    · exact h id e he
  | freeze hcheck =>
    intro id e he
    rw [edges_finish] at he
    exact mem_finish.mpr (h id e he)
  | create span _ hcheck =>
    intro id e he
    rw [edges_insert] at he
    refine mem_insert.mpr (.inl ?_)
    split at he
    · exact target_mem_of_checkCreate hcheck e he
    · exact h id e he
  | replace hcheck hne =>
    rename_i parent index old new
    obtain ⟨node, _, _, hnew⟩ := checkReplace_eq_ok.mp hcheck
    intro id e he
    rw [edges_setChild] at he
    rw [mem_setChild]
    split at he
    · rcases List.mem_or_eq_of_mem_set he with he | he
      · exact h parent e he
      · rw [he]
        exact (hnew hne).1.mem
    · exact h id e he

theorem closed_reachable {c : Context} (h : Reachable c) : Closed c.graph :=
  reachable_invariant closed_empty closed_change h

end Graph

/-! ## Sample programs -/

/-- The context that commands lead to, one after the other. -/
def runAll (cmds : List Command) (c : Context) : Context :=
  cmds.foldl (fun c cmd => after cmd.run c) c

theorem leads_runAll (cmds : List Command) {a b : Context} (h : Leads a b) :
    Leads a (runAll cmds b) := by
  induction cmds generalizing b with
  | nil => exact h
  | cons cmd rest ih => exact ih (.command cmd h)

/-- How a record comes by a field of its own type. The record is begun, so that the field can refer
to it, and is finished once it owns the field; from then on it takes no child, and the last command
but two is refused. The wrapper in the field is replaced by another one at the end. -/
def linkedRecord : List Command := [
  .make (.begin (.type .struct)) .dummy,
  .make (.build (.node (.qualifiedType .none) [.ref ⟨0⟩])) .dummy,
  .make (.build (.node (.declaration (.field (.text "next"))) [.owned ⟨1⟩])) .dummy,
  .push ⟨0⟩ (.owned ⟨2⟩),
  .freeze ⟨0⟩,
  .push ⟨0⟩ (.owned ⟨2⟩),
  .make (.build (.node (.qualifiedType .none) [.ref ⟨0⟩])) .dummy,
  .replace ⟨2⟩ 0 (.owned ⟨3⟩)]

end SyntaxGraph
