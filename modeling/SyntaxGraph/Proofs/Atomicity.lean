import SyntaxGraph.Proofs.Capacity
import SyntaxGraph.Proofs.IntegerTypes
import SyntaxGraph.Proofs.Ownership
import SyntaxGraph.Proofs.Resolved
import SyntaxGraph.Proofs.ValueTypes

/-!
# A refused request leaves no trace

Seven entry points may refuse what they are asked for. Each of them looks at the
graph first and writes it afterwards, so there are two things to see to.

Looking must not go astray. It follows edges and owners, which in a graph that a
program comes to lead to nodes and lead to an end; so it always comes to a
verdict about the request. Writing must not go astray either, and is repeated
here with a look at the bounds before each access: nothing is ever written
outside the arena.

A request for an integer type is the only one that writes more than once. Once
its width has been accepted nothing that follows can be refused, in any graph at
all.

One thing is not for the checks to say: that there is no room in the arena for
what is to be made. A request that meets a full arena is not refused but stopped,
and an integer type may be stopped halfway.
-/

namespace SyntaxGraph

/-! ## Verdicts -/

namespace Graph

variable {g : Graph}

/-- The check comes to a verdict: it does not break off over a fault. -/
def Decides {α : Type} (check : Except NodeError α) : Prop :=
  ∀ fault, check ≠ .error (.fault fault)

theorem decides_ok {α : Type} (a : α) : Decides (.ok a) := fun _ => nofun

theorem decides_bind {α β : Type} {x : Except NodeError α} {f : α → Except NodeError β}
    (hx : Decides x) (hf : ∀ a, x = .ok a → Decides (f a)) : Decides (x >>= f) := by
  cases h : x with
  | error e =>
    intro fault heq
    have he : e = .fault fault := Except.error.inj heq
    exact hx fault (he ▸ h)
  | ok a => exact hf a h

theorem decides_refuseIf (refused : Bool) {e : NodeError} (he : ∀ fault, e ≠ .fault fault) :
    Decides (refuseIf refused e) := by
  cases refused with
  | false => exact decides_ok ()
  | true => exact fun fault h => he fault (Except.error.inj h)

theorem decides_reading {α : Type} {answer : Except Fault α} {a : α} (h : answer = .ok a) :
    Decides (reading answer) := by
  rw [h]
  exact decides_ok a

theorem decides_known (g : Graph) (id : NodeId) : Decides (g.known id) := by
  rw [known]
  cases g.node? id with
  | none => simp [Decides]
  | some node => exact decides_ok node

theorem decides_checkSlot (g : Graph) (kind : Kind Name) (index : Nat) (id : NodeId) :
    Decides (g.checkSlot kind index id) := by
  rw [checkSlot]
  cases kind.layout.slot index with
  | none => exact fun _ => nofun
  | some expected =>
    exact decides_bind (decides_known g id) fun _ _ => decides_refuseIf _ fun _ => nofun

theorem decides_checkFree {child : NodeId} (hchild : child ∈ g) : Decides (g.checkFree child) := by
  obtain ⟨node, hn⟩ := mem_iff_node?.mp hchild
  refine decides_bind (decides_reading (read_of_node? hn)) fun node _ => ?_
  refine decides_bind (decides_refuseIf _ fun _ => nofun) fun _ _ => ?_
  cases node.parent with
  | none => exact decides_ok ()
  | some owner => exact fun _ => nofun

/-- Climbing from the owner to be ends. -/
theorem decides_checkEdge (hown : OwnInv g) {parent : NodeId} (hparent : parent ∈ g) {e : Edge}
    (he : e.target ∈ g) : Decides (g.checkEdge parent e) := by
  cases e with
  | ref target => exact decides_ok ()
  | owned child =>
    obtain ⟨above, hask, _⟩ := hown.isAbove_ends child hparent
    refine decides_bind (decides_checkFree he) fun _ _ => ?_
    exact decides_bind (decides_reading hask) fun _ _ => decides_refuseIf _ fun _ => nofun

theorem decides_checkPush (hown : OwnInv g) (parent : NodeId) (e : Edge) :
    Decides (g.checkPush parent e) := by
  refine decides_bind (decides_known g parent) fun node hnode => ?_
  have hparent : parent ∈ g := mem_iff_node?.mpr ⟨node, known_eq_ok.mp hnode⟩
  refine decides_bind (decides_refuseIf _ fun _ => nofun) fun _ _ => ?_
  refine decides_bind (decides_checkSlot g _ _ _) fun _ hslot => ?_
  exact decides_checkEdge hown hparent (checkSlot_eq_ok.mp hslot).mem

theorem decides_checkFreeze (g : Graph) (id : NodeId) : Decides (g.checkFreeze id) :=
  decides_bind (decides_known g id) fun _ _ =>
    decides_bind (decides_refuseIf _ fun _ => nofun) fun _ _ =>
      decides_refuseIf _ fun _ => nofun

theorem decides_checkChildren (g : Graph) (kind : Kind Name) (rest : List Edge) :
    ∀ earlier, Decides (g.checkChildren kind earlier rest) := by
  induction rest with
  | nil => exact fun _ => decides_ok ()
  | cons e rest ih =>
    intro earlier
    refine decides_bind (decides_checkSlot g _ _ _) fun _ hslot => ?_
    cases e with
    | ref target => exact ih _
    | owned child =>
      -- the slot was looked at first, so the child is there
      have hchild : child ∈ g := (checkSlot_eq_ok.mp hslot).mem
      refine decides_bind (decides_checkFree hchild) fun _ _ => ?_
      exact decides_bind (decides_refuseIf _ fun _ => nofun) fun _ _ => ih _

theorem decides_checkCreate (g : Graph) (kind : Kind Name) (children : List Edge) :
    Decides (g.checkCreate kind children) :=
  decides_bind (decides_refuseIf _ fun _ => nofun) fun _ _ =>
    decides_checkChildren g kind children []

theorem decides_checkReplace (hown : OwnInv g) (parent : NodeId) (index : Nat) (e : Edge) :
    Decides (g.checkReplace parent index e) := by
  refine decides_bind (decides_known g parent) fun node hnode => ?_
  have hn : g.node? parent = some node := known_eq_ok.mp hnode
  have hparent : parent ∈ g := mem_iff_node?.mpr ⟨node, hn⟩
  cases hold : node.children[index]? with
  | none => exact fun _ => nofun
  | some old =>
    have holdMem : old.target ∈ g :=
      hown.closed parent old (edges_of_node? hn ▸ List.mem_of_getElem? hold)
    dsimp only
    split
    · exact decides_ok old
    refine decides_bind (decides_checkSlot g _ _ _) fun _ hslot => ?_
    have hnewMem : e.target ∈ g := (checkSlot_eq_ok.mp hslot).mem
    refine decides_bind (decides_checkEdge hown hparent hnewMem) fun _ _ => ?_
    -- both walks that look for placeholders end
    obtain ⟨before, hbefore, _⟩ := isResolved_eq_ok hown.closed holdMem
    obtain ⟨later, hlater, _⟩ := isResolved_eq_ok hown.closed hnewMem
    refine decides_bind (decides_reading hbefore) fun resolved _ => ?_
    cases resolved with
    | false => exact decides_ok old
    | true =>
      refine decides_bind (decides_reading hlater) fun _ _ => ?_
      exact decides_bind (decides_refuseIf _ fun _ => nofun) fun _ _ => decides_ok old

theorem decides_checkDeclaration (hclosed : Closed g) (id : NodeId) :
    Decides (g.checkDeclaration id) := by
  refine decides_bind (decides_known g id) fun node hnode => ?_
  have hid : id ∈ g := mem_iff_node?.mpr ⟨node, known_eq_ok.mp hnode⟩
  dsimp only
  split
  · obtain ⟨type?, hask, _⟩ := typeOf_eq_ok hclosed hid
    refine decides_bind (decides_reading hask) fun found _ => ?_
    cases found with
    | none => exact fun _ => nofun
    | some type => exact decides_ok type
  · exact fun _ => nofun

end Graph

/-! ## Writing with a look at the bounds -/

namespace Bounded

/-- The graph with one node changed, if the node is there. -/
def modify (g : Graph) (id : NodeId) (f : Node → Node) : Except Fault Graph :=
  if id ∈ g then .ok (g.modify id f) else .error (.stray id)

/-- The graph in which what an edge owns has another owner, if it is there. -/
def setOwner (g : Graph) (e : Edge) (owner : Option NodeId) : Except Fault Graph :=
  match e with
  | .owned child => modify g child fun node => { node with parent := owner }
  | .ref _ => .ok g

/-- The graph with one more child of a node. -/
def addChild (g : Graph) (parent : NodeId) (e : Edge) : Except Fault Graph := do
  let g ← setOwner g e (some parent)
  modify g parent fun node => { node with children := node.children ++ [e] }

/-- The graph with a node finished. -/
def finish (g : Graph) (id : NodeId) : Except Fault Graph :=
  modify g id fun node => { node with frozen := true }

/-- The graph with a new, finished node that owns what the edges own. -/
def insert (g : Graph) (kind : Kind Name) (children : List Edge) (span : Span) :
    Except Fault Graph := do
  let h ← children.foldlM (fun h e => setOwner h e (some g.nextId)) g
  return h.push ⟨kind, span, children, none, true⟩

/-- The graph with a child of a node replaced, if there is a child at the position. -/
def setChild (g : Graph) (parent : NodeId) (index : Nat) (old new : Edge) :
    Except Fault Graph := do
  let g ← setOwner g old none
  let g ← setOwner g new (some parent)
  if index < (g.edges parent).length then
    modify g parent fun node => { node with children := node.children.set index new }
  else .error (.stray parent)

variable {g : Graph}

theorem modify_eq_ok {id : NodeId} (h : id ∈ g) (f : Node → Node) :
    modify g id f = .ok (g.modify id f) := if_pos h

theorem setOwner_eq_ok {e : Edge} (h : e.target ∈ g) (owner : Option NodeId) :
    setOwner g e owner = .ok (g.setOwner e owner) := by
  cases e with
  | ref target => rfl
  | owned child => exact modify_eq_ok h _

theorem mem_setOwner {e : Edge} {owner : Option NodeId} {id : NodeId} :
    id ∈ g.setOwner e owner ↔ id ∈ g := by
  rw [Graph.mem_def, Graph.mem_def, Graph.size_setOwner]

theorem addChild_eq_ok {parent : NodeId} {e : Edge} (h : g.checkPush parent e = .ok ()) :
    addChild g parent e = .ok (g.addChild parent e) := by
  obtain ⟨node, hn, _, hfits, _⟩ := Graph.checkPush_eq_ok.mp h
  have hparent : parent ∈ g := Graph.mem_iff_node?.mpr ⟨node, hn⟩
  have howner := setOwner_eq_ok hfits.mem (some parent)
  simp only [addChild, howner, bind, Except.bind]
  exact modify_eq_ok (mem_setOwner.mpr hparent) _

theorem finish_eq_ok {id : NodeId} (h : g.checkFreeze id = .ok ()) :
    finish g id = .ok (g.finish id) := by
  obtain ⟨node, hn, _⟩ := Graph.checkFreeze_eq_ok.mp h
  exact modify_eq_ok (Graph.mem_iff_node?.mpr ⟨node, hn⟩) _

theorem foldlM_setOwner (owner : Option NodeId) (children : List Edge) : ∀ {g : Graph},
    (∀ e ∈ children, e.target ∈ g) →
      children.foldlM (fun h e => setOwner h e owner) g =
        .ok (children.foldl (fun h e => h.setOwner e owner) g) := by
  induction children with
  | nil => intro g _; rfl
  | cons e rest ih =>
    intro g h
    obtain ⟨he, hrest⟩ := List.forall_mem_cons.mp h
    simp only [List.foldlM_cons, List.foldl_cons, setOwner_eq_ok he, bind, Except.bind]
    exact ih fun e' he' => mem_setOwner.mpr (hrest e' he')

theorem insert_eq_ok {kind : Kind Name} {children : List Edge} (span : Span)
    (h : g.checkCreate kind children = .ok ()) :
    insert g kind children span = .ok (g.insert kind children span) := by
  have hmem : ∀ e ∈ children, e.target ∈ g := Graph.target_mem_of_checkCreate h
  simp only [insert, foldlM_setOwner _ _ hmem, bind, Except.bind, pure, Except.pure]
  rfl

/-- What the old edge owns is there because edges lead to nodes. -/
theorem setChild_eq_ok (hclosed : g.Closed) {parent : NodeId} {index : Nat} {old new : Edge}
    (h : g.checkReplace parent index new = .ok old) (hne : old ≠ new) :
    setChild g parent index old new = .ok (g.setChild parent index old new) := by
  obtain ⟨node, hn, _, hnew⟩ := Graph.checkReplace_eq_ok.mp h
  have hslot : g.edge? parent index = some old := Graph.edge?_of_checkReplace h
  have hparent : parent ∈ g := Graph.mem_iff_node?.mpr ⟨node, hn⟩
  have hold : old.target ∈ g := hclosed.target_mem hslot
  have hnewMem : new.target ∈ g := (hnew hne).1.mem
  have hlt : index < (((g.setOwner old none).setOwner new (some parent)).edges parent).length := by
    have hedges : ((g.setOwner old none).setOwner new (some parent)).edges parent =
        g.edges parent := by
      simp only [Graph.edges, Graph.node?_setOwner, hn, Option.map_some, Option.getD_some]
      split <;> split <;> rfl
    rw [hedges]
    exact (List.getElem?_eq_some_iff.mp hslot).1
  simp only [setChild, setOwner_eq_ok hold, setOwner_eq_ok (mem_setOwner.mpr hnewMem), bind,
    Except.bind, if_pos hlt]
  exact modify_eq_ok (mem_setOwner.mpr (mem_setOwner.mpr hparent)) _

/-! ## The steps with bounded writes -/

/-- Writes the graph; a write out of bounds is a fault. -/
def write (change : Graph → Except Fault Graph) : Build Unit := fun c =>
  match change c.graph with
  | .ok g => .ok () { c with graph := g }
  | .error fault => .error (.node (.fault fault)) c

/-- Makes a finished node with all its children. -/
def create (kind : Kind Name) (children : List Edge) (span : Span) : Build NodeId := do
  Build.check (·.checkCreate kind children)
  let id ← Build.allocate
  write (insert · kind children span)
  return id

/-- Adds a child to a node under construction. -/
def pushChild (parent : NodeId) (e : Edge) : Build Unit := do
  Build.check (·.checkPush parent e)
  write (addChild · parent e)

/-- Finishes a node. -/
def freeze (id : NodeId) : Build Unit := do
  Build.check (·.checkFreeze id)
  write (finish · id)

/-- Replaces a child and answers the edge that was there. -/
def replaceChild (parent : NodeId) (index : Nat) (e : Edge) : Build Edge := do
  let old ← Build.check (·.checkReplace parent index e)
  if old ≠ e then write (setChild · parent index old e)
  return old

/-- Makes an integer type with its default value. -/
def integerType (sign : Signedness) (width : UInt16) (span : Span) : Build NodeId := do
  if !isIntegerWidth width then throw (.node (.invalidIntegerWidth width))
  let type ← Build.begin (.type (.integer sign width)) span
  let constant ← create (.qualifiedType .onlyConst) [.ref type] span
  let zero ← create (.literal (.zero sign width)) [.owned constant] span
  pushChild type (.owned zero)
  freeze type
  return type

/-- A reference to a declaration, of the type that the declaration has. -/
def declarationRef (declaration : NodeId) (span : Span) : Build NodeId := do
  let type ← Build.check (·.checkDeclaration declaration)
  create (.expression .declarationRef) [.ref type, .ref declaration] span

theorem write_eq_ok {change : Graph → Except Fault Graph} {c : Context} {g : Graph}
    (h : change c.graph = .ok g) : write change c = .ok () { c with graph := g } := by
  rw [write, h]

theorem create_eq (kind : Kind Name) (children : List Edge) (span : Span) :
    create kind children span = Build.create kind children span := by
  funext c
  cases h : c.graph.checkCreate kind children with
  | error cause => simp only [create, Build.create, Build.check, h, bind, EStateM.bind]
  | ok _ =>
    have hwrite : write (insert · kind children span) c = _ := write_eq_ok (insert_eq_ok span h)
    cases hroom : c.graph.newId? <;>
      simp only [create, Build.create, Build.check, Build.insert, Build.allocate, Build.write, h,
        hroom, hwrite, bind, EStateM.bind, pure, EStateM.pure]

theorem pushChild_eq (parent : NodeId) (e : Edge) :
    pushChild parent e = Build.pushChild parent e := by
  funext c
  cases h : c.graph.checkPush parent e with
  | error cause => simp only [pushChild, Build.pushChild, Build.check, h, bind, EStateM.bind]
  | ok _ =>
    have hwrite : write (addChild · parent e) c = _ := write_eq_ok (addChild_eq_ok h)
    simp only [pushChild, Build.pushChild, Build.check, Build.write, h, hwrite, bind, EStateM.bind]

theorem freeze_eq (id : NodeId) : freeze id = Build.freeze id := by
  funext c
  cases h : c.graph.checkFreeze id with
  | error cause => simp only [freeze, Build.freeze, Build.check, h, bind, EStateM.bind]
  | ok _ =>
    have hwrite : write (finish · id) c = _ := write_eq_ok (finish_eq_ok h)
    simp only [freeze, Build.freeze, Build.check, Build.write, h, hwrite, bind, EStateM.bind]

/-- Of the writes this is the one that needs to know something about the graph. -/
theorem replaceChild_eq {c : Context} (hclosed : c.graph.Closed) (parent : NodeId) (index : Nat)
    (e : Edge) : replaceChild parent index e c = Build.replaceChild parent index e c := by
  cases h : c.graph.checkReplace parent index e with
  | error cause => simp only [replaceChild, Build.replaceChild, Build.check, h, bind, EStateM.bind]
  | ok old =>
    by_cases hold : old = e
    · simp only [replaceChild, Build.replaceChild, Build.check, h, hold, ne_eq, not_true, if_false,
        bind, EStateM.bind]
    · have hwrite : write (setChild · parent index old e) c = _ :=
        write_eq_ok (setChild_eq_ok hclosed h hold)
      simp only [replaceChild, Build.replaceChild, Build.check, Build.write, h, hwrite, hold, ne_eq,
        not_false_eq_true, if_true, bind, EStateM.bind]

theorem integerType_eq (sign : Signedness) (width : UInt16) (span : Span) :
    integerType sign width span = Build.integerType sign width span := by
  simp only [integerType, Build.integerType, create_eq, pushChild_eq, freeze_eq]

theorem declarationRef_eq (declaration : NodeId) (span : Span) :
    declarationRef declaration span = Build.declarationRef declaration span := by
  simp only [declarationRef, Build.declarationRef, create_eq]

end Bounded

/-! ## The entry points -/

/-- What a graph can be asked to do with a node and its children. -/
inductive Request where
  /-- Makes a finished node with all its children. -/
  | create (kind : Kind Name) (children : List Edge) (span : Span)
  /-- Adds a child to a node under construction. -/
  | push (parent : NodeId) (e : Edge)
  /-- Finishes a node. -/
  | freeze (id : NodeId)
  /-- Replaces a child. -/
  | replace (parent : NodeId) (index : Nat) (e : Edge)
  deriving DecidableEq, Repr

namespace Request

/-- Makes the request. -/
def run (request : Request) : Build Reply :=
  match request with
  | create kind children span => do return .made (← Build.create kind children span)
  | push parent e => do
    let _ ← Build.pushChild parent e
    return .done
  | freeze id => do
    let _ ← Build.freeze id
    return .done
  | replace parent index e => do return .replaced (← Build.replaceChild parent index e)

/-- Makes the request, with a look at the bounds before each write. -/
def runBounded (request : Request) : Build Reply :=
  match request with
  | create kind children span => do return .made (← Bounded.create kind children span)
  | push parent e => do
    let _ ← Bounded.pushChild parent e
    return .done
  | freeze id => do
    let _ ← Bounded.freeze id
    return .done
  | replace parent index e => do return .replaced (← Bounded.replaceChild parent index e)

/-- How many nodes are made. -/
def demand : Request → Nat
  | create _ _ _ => 1
  | push _ _ => 0
  | freeze _ => 0
  | replace _ _ _ => 0

end Request

/-- What a caller may ask for, and be refused. -/
inductive Attempt where
  /-- Makes a request. -/
  | request (what : Request)
  /-- Makes a reference to a declaration. -/
  | refer (declaration : NodeId) (span : Span)
  /-- Makes an integer type with its default value. -/
  | integer (sign : Signedness) (width : UInt16) (span : Span)
  deriving DecidableEq, Repr

namespace Attempt

/-- Tries it. -/
def run (attempt : Attempt) : Build Reply :=
  match attempt with
  | request what => what.run
  | refer declaration span => do return .made (← Build.declarationRef declaration span)
  | integer sign width span => do return .made (← Build.integerType sign width span)

/-- Tries it, with a look at the bounds before each write. -/
def runBounded (attempt : Attempt) : Build Reply :=
  match attempt with
  | request what => what.runBounded
  | refer declaration span => do return .made (← Bounded.declarationRef declaration span)
  | integer sign width span => do return .made (← Bounded.integerType sign width span)

/-- How many nodes are made. -/
def demand : Attempt → Nat
  | request what => what.demand
  | refer _ _ => 1
  | integer _ _ _ => 3

/-- No write is out of bounds. -/
theorem runBounded_eq {c : Context} (hclosed : c.graph.Closed) (attempt : Attempt) :
    attempt.runBounded c = attempt.run c := by
  cases attempt with
  | request what =>
    cases what with
    | create kind children span =>
      simp only [runBounded, run, Request.runBounded, Request.run, Bounded.create_eq]
    | push parent e =>
      simp only [runBounded, run, Request.runBounded, Request.run, Bounded.pushChild_eq]
    | freeze id =>
      simp only [runBounded, run, Request.runBounded, Request.run, Bounded.freeze_eq]
    | replace parent index e =>
      simp only [runBounded, run, Request.runBounded, Request.run, bind, EStateM.bind,
        Bounded.replaceChild_eq hclosed]
  | refer declaration span => simp only [runBounded, run, Bounded.declarationRef_eq]
  | integer sign width span => simp only [runBounded, run, Bounded.integerType_eq]

end Attempt

/-! ## How an attempt ends -/

/-- How a step that is to make so many nodes may end. -/
inductive Ending {α : Type} (demand : Nat) (c : Context) :
    EStateM.Result BuildError Context α → Prop where
  /-- It has made them. -/
  | made {a : α} {d : Context} : d.graph.size = c.graph.size + demand → Ending demand c (.ok a d)
  /-- It is refused, for a reason that is no fault, and the context is the one before. -/
  | refused {reason : NodeError} : (∀ fault, reason ≠ .fault fault) →
    Ending demand c (.error (.node reason) c)
  /-- It is stopped because there is no room for them. -/
  | stopped {d : Context} : ¬ c.graph.HasRoom demand →
    Ending demand c (.error (.full Graph.capacity) d)

section Endings

variable {α β : Type} {demand : Nat} {c : Context}

theorem ending_map {step : Build α} (h : Ending demand c (step c)) (f : α → β) :
    Ending demand c ((do return f (← step) : Build β) c) := by
  simp only [bind, EStateM.bind, pure, EStateM.pure]
  generalize step c = result at h
  cases h with
  | made hsize => exact .made hsize
  | refused hreason => exact .refused hreason
  | stopped hfull => exact .stopped hfull

/-- A step that begins with a check. Whatever comes after starts in the same context. -/
theorem ending_check {question : Graph → Except NodeError α} {next : α → Build β}
    (hquestion : Graph.Decides (question c.graph))
    (hnext : ∀ a, question c.graph = .ok a → Ending demand c (next a c)) :
    Ending demand c ((Build.check question >>= next) c) := by
  simp only [Build.check, bind, EStateM.bind]
  cases hanswer : question c.graph with
  | ok a => exact hnext a hanswer
  | error reason =>
    refine .refused fun fault hfault => hquestion fault ?_
    rw [hanswer, hfault]

/-- A write that adds no node. -/
theorem ending_write {change : Graph → Graph} (h : (change c.graph).size = c.graph.size) :
    Ending 0 c (Build.write change c) :=
  .made h

variable (hsize : c.graph.size ≤ Graph.capacity)

include hsize

theorem ending_create (kind : Kind Name) (children : List Edge) (span : Span) :
    Ending 1 c (Build.create kind children span c) := by
  refine ending_check (Graph.decides_checkCreate _ kind children) fun _ _ => ?_
  by_cases hroom : c.graph.HasRoom 1
  · rw [Build.insert_eq_ok.mpr ⟨hroom, rfl, rfl⟩]
    exact .made (Graph.size_insert _ _ _ _)
  · have hnone : c.graph.HasRoom 0 := hsize
    have hfull : c.graph.size = Graph.capacity := hnone.size_eq hroom
    rw [Build.insert_of_full hroom, hfull]
    exact .stopped hroom

theorem ending_integerType (sign : Signedness) (width : UInt16) (span : Span) :
    Ending 3 c (Build.integerType sign width span c) := by
  cases hw : isIntegerWidth width with
  | false =>
    rw [Build.integerType_eq_error hw]
    exact .refused fun _ => nofun
  | true =>
    by_cases hroom : c.graph.HasRoom 3
    · rw [Build.integerType_eq_ok hw span hroom]
      exact .made (c.graph.size_withInteger sign width span)
    · obtain ⟨g, _, hfull, hrun⟩ := Build.integerType_of_full hw span hroom
      rw [hrun, hfull hsize]
      exact .stopped hroom

end Endings

/-- No check goes astray, and none is failed after a write. -/
theorem Request.ending_run {c : Context} (hown : c.graph.OwnInv)
    (hsize : c.graph.size ≤ Graph.capacity) (request : Request) :
    Ending request.demand c (request.run c) := by
  cases request with
  | create kind children span => exact ending_map (ending_create hsize kind children span) _
  | push parent e =>
    have hpush : Ending 0 c (Build.pushChild parent e c) :=
      ending_check (Graph.decides_checkPush hown parent e) fun _ _ =>
        ending_write (by rw [Graph.addChild, Graph.size_modify, Graph.size_setOwner])
    exact ending_map hpush _
  | freeze id =>
    have hfreeze : Ending 0 c (Build.freeze id c) :=
      ending_check (Graph.decides_checkFreeze _ id) fun _ _ =>
        ending_write (by rw [Graph.finish, Graph.size_modify])
    exact ending_map hfreeze _
  | replace parent index e =>
    have hreplace : Ending 0 c (Build.replaceChild parent index e c) := by
      refine ending_check (Graph.decides_checkReplace hown parent index e) fun old _ => ?_
      by_cases hold : old = e
      · rw [if_neg (not_not_intro hold)]
        exact .made rfl
      · rw [if_pos hold]
        refine ending_map (ending_write ?_) fun _ => old
        rw [Graph.setChild, Graph.size_modify, Graph.size_setOwner, Graph.size_setOwner]
    exact ending_map hreplace _

theorem Attempt.ending_run {c : Context} (hown : c.graph.OwnInv)
    (hsize : c.graph.size ≤ Graph.capacity) (attempt : Attempt) :
    Ending attempt.demand c (attempt.run c) := by
  cases attempt with
  | request what => exact what.ending_run hown hsize
  | refer declaration span =>
    have hrefer : Ending 1 c (Build.declarationRef declaration span c) :=
      ending_check (Graph.decides_checkDeclaration hown.closed declaration) fun _ _ =>
        ending_create hsize _ _ _
    exact ending_map hrefer _
  | integer sign width span => exact ending_map (ending_integerType hsize sign width span) _

/-- **A refused request leaves no trace.** In a context that a program comes to, whatever is
requested with whatever ids, positions and widths: nothing is read or written outside the arena, and
if the request is refused the context is the one before. Nothing else can go wrong unless the arena
has no room for the nodes that are to be made. -/
theorem attempts_atomic {c : Context} (h : Reachable c) (attempt : Attempt) :
    attempt.runBounded c = attempt.run c
      ∧ (∀ fault d, attempt.runBounded c ≠ .error (.node (.fault fault)) d)
      ∧ (∀ reason d, attempt.run c = .error (.node reason) d → d = c)
      ∧ (∀ cause d, attempt.run c = .error cause d →
        (∃ reason, cause = .node reason)
          ∨ cause = .full Graph.capacity ∧ ¬ c.graph.HasRoom attempt.demand)
      ∧ ∀ reply d, attempt.run c = .ok reply d →
        d.graph.size = c.graph.size + attempt.demand := by
  have hown := Graph.ownInv_reachable h
  have hbounded := attempt.runBounded_eq hown.closed
  have hending := attempt.ending_run hown (Graph.size_le_capacity h)
  refine ⟨hbounded, fun fault d hrun => ?_, fun reason d hrun => ?_, fun cause d hrun => ?_,
    fun reply d hrun => ?_⟩
  · rw [hbounded.symm.trans hrun] at hending
    cases hending with
    | refused hreason => exact hreason fault rfl
  · rw [hrun] at hending
    cases hending with
    | refused _ => rfl
  · rw [hrun] at hending
    cases hending with
    | refused _ => exact .inl ⟨_, rfl⟩
    | stopped hroom => exact .inr ⟨rfl, hroom⟩
  · rw [hrun] at hending
    cases hending with
    | made hsize => exact hsize

/-- The field of the record cannot be replaced by what is not there. -/
theorem attempts_atomic_linkedRecord :
    let c := runAll linkedRecord .fresh
    let attempt := Attempt.request (.replace ⟨0⟩ 0 (.ref .invalid))
    Reachable c
      ∧ attempt.run c = .error (.node (.unknownNode .invalid)) c
      ∧ attempt.runBounded c = attempt.run c
      ∧ (∀ fault d, attempt.runBounded c ≠ .error (.node (.fault fault)) d)
      ∧ (∀ reason d, attempt.run c = .error (.node reason) d → d = c)
      ∧ (∀ cause d, attempt.run c = .error cause d →
        (∃ reason, cause = .node reason)
          ∨ cause = .full Graph.capacity ∧ ¬ c.graph.HasRoom attempt.demand)
      ∧ ∀ reply d, attempt.run c = .ok reply d →
        d.graph.size = c.graph.size + attempt.demand := by
  intro c attempt
  have hc : Reachable c := leads_runAll linkedRecord (.refl _)
  have hcheck : c.graph.checkReplace ⟨0⟩ 0 (.ref .invalid) = .error (.unknownNode .invalid) := by
    decide +kernel
  refine ⟨hc, ?_, attempts_atomic hc attempt⟩
  simp only [attempt, Attempt.run, Request.run, Build.replaceChild, Build.check, hcheck, bind,
    EStateM.bind]

/-- Not every failure is a refusal: in a full arena a node without children is neither made nor
refused. -/
theorem exists_attempt_stopped :
    ¬ ∀ c, Reachable c → ∀ attempt : Attempt,
      attempt.runBounded c = attempt.run c
        ∧ (∀ fault d, attempt.runBounded c ≠ .error (.node (.fault fault)) d)
        ∧ ∀ cause d, attempt.run c = .error cause d → (∃ reason, cause = .node reason) ∧ d = c := by
  intro h
  obtain ⟨c, hc, hfull⟩ := exists_full
  have hcreate : Build.create (.type .bool) [] .dummy c = .error (.full c.graph.size) c :=
    Build.create_of_full rfl hfull
  have hrun : (Attempt.request (.create (.type .bool) [] .dummy)).run c =
      .error (.full c.graph.size) c := by
    simp only [Attempt.run, Request.run, bind, EStateM.bind, hcreate]
  obtain ⟨_, _, hfails⟩ := h c hc (.request (.create (.type .bool) [] .dummy))
  obtain ⟨⟨_, hreason⟩, _⟩ := hfails _ _ hrun
  exact BuildError.noConfusion hreason

end SyntaxGraph
