import SyntaxGraph.Proofs.Sharing

/-!
# Places of the source are metadata

Every node remembers which place of the source it comes from, and nothing else
depends on that. To say so for whole runs, take a program that works on a unit by
calls, passes and questions, and goes on with whatever it is told. It may ask for
all there is but the place of a node, and in its calls tags stand for places.
Whichever places the tags are given, the program is told the same: the same ids,
edges and errors, in the same order. The tables of names come out the same, and so
do the answers to all questions that might be asked afterwards.

Two runs that differ in places are a case of two runs side by side. The tables are
equal, a name stands for itself, and any place for any other.
-/

namespace SyntaxGraph

/-! ## Programs that do not look at places -/

/-- A node without the place that it comes from. -/
structure NodeView where
  kind : Kind Name
  children : List Edge
  parent : Option NodeId
  frozen : Bool
  deriving DecidableEq, Repr

/-- What there is to see of a node. -/
def Node.view (n : Node) : NodeView := ⟨n.kind, n.children, n.parent, n.frozen⟩

/-- What can be asked about a context without a look at places, with the type of the answer. -/
inductive Query : Type → Type 1 where
  | names : Query Interner
  | size : Query Nat
  | view (id : NodeId) : Query (Option NodeView)
  | describe (id : NodeId) : Query String
  | dump (root : NodeId) : Query String
  | typeOf (id : NodeId) : Query (Except Fault (Option NodeId))
  | valueType (id : NodeId) : Query (Except Fault (Option (TypeShape Name)))
  | isAllocable (id : NodeId) : Query (Except Fault Bool)
  | isSortable (id : NodeId) : Query (Except Fault Bool)
  | unqualified (id : NodeId) : Query (Except Fault (Option NodeId))
  | qualifiers (id : NodeId) : Query (Except Fault (Option Qualifiers))
  | integerDefault (id : NodeId) : Query (Except Fault (Option NodeId))
  | isResolved (id : NodeId) : Query (Except Fault Bool)
  | isResolvedFrom (id : NodeId) (seen : NodeSet) : Query (Except Fault (Bool × NodeSet))
  | unresolvedNodes (root : NodeId) : Query (Except Fault (List NodeId))
  | isEqual (a b : NodeId) : Query (Except Fault Bool)
  | isEqualFrom (a b : NodeId) (assumed : List NodePair) :
    Query (Except Fault (Bool × List NodePair))
  | dedup (ids : List NodeId) : Query (Except Fault (List NodeId))
  | visit {σ : Type} (root : NodeId) (visitor : NodeId → NodeView → σ → Bool × σ) (state : σ) :
    Query (Except Fault σ)
  | collect {σ : Type} (root : NodeId) (predicate : Graph.Search σ) (state : σ) :
    Query (Except Fault (List NodeId × σ))
  | findFirst {σ : Type} (root : NodeId) (predicate : Graph.Search σ) (state : σ) :
    Query (Except Fault (Option NodeId × σ))
  | hasAny {σ : Type} (root : NodeId) (predicate : Graph.Search σ) (state : σ) :
    Query (Except Fault (Bool × σ))

/-- The answer to a question. -/
def Query.answer {β : Type} (c : Context) : Query β → β
  | names => c.names
  | size => c.graph.size
  | view id => (c.graph.node? id).map Node.view
  | describe id => c.describe id
  | dump root => c.dump root
  | typeOf id => c.graph.typeOf id
  | valueType id => c.graph.valueType id
  | isAllocable id => c.graph.isAllocable id
  | isSortable id => c.graph.isSortable id
  | unqualified id => c.graph.unqualified id
  | qualifiers id => c.graph.qualifiers id
  | integerDefault id => c.graph.integerDefault id
  | isResolved id => c.graph.isResolved id
  | isResolvedFrom id seen => c.graph.isResolvedFrom id seen
  | unresolvedNodes root => c.graph.unresolvedNodes root
  | isEqual a b => c.graph.isEqual a b
  | isEqualFrom a b assumed => c.graph.isEqualFrom a b assumed
  | dedup ids => c.graph.dedup ids
  | visit root visitor state => c.graph.visit (fun id node s => visitor id node.view s) root state
  | collect root predicate state => c.graph.collect root predicate state
  | findFirst root predicate state => c.graph.findFirst root predicate state
  | hasAny root predicate state => c.graph.hasAny root predicate state

/-- The command, if it makes a node, with another place for what it makes. -/
def Command.placed (cmd : Command) (span : Span) : Command :=
  match cmd with
  | .make what _ => .make what span
  | cmd => cmd

/-- What is done to a unit, one thing after the other, and with what result. Tags of type `ι` stand
for the places that nodes come from. -/
inductive Program (ι : Type) : Type → Type 1 where
  /-- Ends with a result. -/
  | done {α : Type} (result : α) : Program ι α
  /-- Runs a command; what it makes comes from the place of the tag. -/
  | call {α : Type} (cmd : Command) (tag : ι) (next : Except BuildError Reply → Program ι α) :
    Program ι α
  /-- Asks a question. -/
  | ask {α β : Type} (query : Query β) (next : β → Program ι α) : Program ι α
  /-- Goes over a tree with a rewriter, which has a memory and may give up. -/
  | rewrite {α σ ε : Type} (depth : Nat) (root : NodeId)
    (rewriter : NodeId → σ → Program ι (Except ε Action × σ)) (memory : σ)
    (next : Except (PassError ε) PassOutcome → σ → Program ι α) : Program ι α

namespace Program

/-- What a step comes to, and the state that it leaves behind. -/
def told {ε σ α : Type} : EStateM.Result ε σ α → Except ε α × σ
  | .ok a s => (.ok a, s)
  | .error cause s => (.error cause, s)

/-- A rewriter as a pass. -/
def pass {σ ε : Type} (rewriter : NodeId → σ → Context → (Except ε Action × σ) × Context) :
    Pass σ ε := fun id s =>
  match rewriter id s.memory s.context with
  | ((.ok action, memory), c) => .ok action ⟨c, memory⟩
  | ((.error cause, memory), c) => .error (.gaveUp cause) ⟨c, memory⟩

/-- What the program comes to, and what becomes of the context, if tags stand for these places. -/
def eval {ι α : Type} (place : ι → Span) : Program ι α → Context → α × Context
  | done result, c => (result, c)
  | call cmd tag next, c =>
    let (reply, c) := told ((cmd.placed (place tag)).run c)
    (next reply).eval place c
  | ask query next, c => (next (query.answer c)).eval place c
  | rewrite depth root rewriter memory next, c =>
    let (outcome, s) :=
      told ((pass fun id m => (rewriter id m).eval place).run depth root ⟨c, memory⟩)
    (next outcome s.memory).eval place s.context

end Program

/-! ## Questions -/

section Questions

variable {S : Span → Span → Prop} {g g' : Graph}

/-- Nodes that look the same differ in their places at most. -/
theorem Node.eq_of_view {n n' : Node} (h : n.view = n'.view) :
    ∃ span, n = { n' with span := span } := by
  obtain ⟨kind, span, children, parent, frozen⟩ := n
  simp only [Node.view, NodeView.mk.injEq] at h
  obtain ⟨rfl, rfl, rfl, rfl⟩ := h
  exact ⟨span, rfl⟩

theorem Node.Like.view {n n' : Node} (h : Node.Like Eq S n n') : n.view = n'.view := by
  rw [Node.view, h.kind.eq, h.children, h.parent, h.frozen, Node.view]

namespace Graph.Like

variable (h : Graph.Like Eq S g g')

include h

theorem view (id : NodeId) : (g.node? id).map Node.view = (g'.node? id).map Node.view := by
  rcases h.node id with ⟨hn, hn'⟩ | ⟨n, n', hn, hn', hlike⟩
  · rw [hn, hn']
  · rw [hn, hn', Option.map_some, hlike.view, Option.map_some]

/-- What is read of a node without its place. -/
theorem read_view {β : Type} {f : Node → Except Fault β}
    (hf : ∀ n span, f { n with span := span } = f n) (id : NodeId) :
    (g.read id >>= f) = (g'.read id >>= f) := by
  refine agree_eq_iff.mp (agree_bind (h.read id) fun n n' hlike => agree_eq_iff.mpr ?_)
  obtain ⟨span, rfl⟩ := Node.eq_of_view hlike.view
  exact hf n' span

theorem valueType_eq (id : NodeId) : g.valueType id = g'.valueType id := by
  refine agree_eq_iff.mp ((h.valueType id).imp fun shape? shape'? hshape => ?_)
  cases hshape with
  | none => rfl
  | some hlike =>
    injection hlike.eq with hsame
    rw [hsame]

/-- A visitor that does not look at places sees no difference. -/
theorem visit_view {σ : Type} {visitor : Visitor σ}
    (hvisitor : ∀ id n span s, visitor id { n with span := span } s = visitor id n s)
    (root : NodeId) (state : σ) : g.visit visitor root state = g'.visit visitor root state := by
  refine agree_eq_iff.mp (h.visit (R := Eq) (fun id n n' hlike s s' hs => ?_) root rfl)
  obtain ⟨span, rfl⟩ := Node.eq_of_view hlike.view
  rw [hs, hvisitor]
  exact ⟨rfl, rfl⟩

theorem findFirst {σ : Type} (root : NodeId) (predicate : Search σ) (state : σ) :
    g.findFirst root predicate state = g'.findFirst root predicate state := by
  rw [Graph.findFirst, h.visit_view fun _ _ _ _ => rfl, Graph.findFirst]

end Graph.Like

/-- **No question has another answer** where nothing differs but places. -/
theorem Query.answer_eq {c d : Context} (hnames : c.names = d.names)
    (h : Graph.Like Eq S c.graph d.graph) {β : Type} (query : Query β) :
    query.answer c = query.answer d := by
  have hspelled : Spelled Eq c.names d.names := by
    rintro n _ rfl
    rw [hnames]
  have hone : OneToOne (Eq : Name → Name → Prop) := by
    rintro a b _ _ rfl rfl
    exact Iff.rfl
  cases query with
  | names => exact hnames
  | size => exact h.size
  | view id => exact h.view id
  | describe id => exact h.describe hspelled id
  | dump root => exact h.dump hspelled root
  | typeOf id => exact h.typeOf id
  | valueType id => exact h.valueType_eq id
  | isAllocable id => rw [answer, Graph.isAllocable, h.valueType_eq, answer, Graph.isAllocable]
  | isSortable id => rw [answer, Graph.isSortable, h.valueType_eq, answer, Graph.isSortable]
  | unqualified id => exact h.read_view (fun _ _ => rfl) id
  | qualifiers id => exact h.read_view (fun _ _ => rfl) id
  | integerDefault id => exact h.read_view (fun _ _ => rfl) id
  | isResolved id => exact h.isResolved id
  | isResolvedFrom id seen => exact h.isResolvedFrom id seen
  | unresolvedNodes root => exact h.unresolvedNodes root
  | isEqual a b => exact h.isEqual hone a b
  | isEqualFrom a b assumed => exact h.isEqualFrom hone a b assumed
  | dedup ids => exact h.dedup hone ids
  | visit root visitor state =>
    exact h.visit_view (fun _ _ _ _ => rfl) root state
  | collect root predicate state =>
    rw [answer, answer, Graph.collect, h.visit_view fun _ _ _ _ => rfl, Graph.collect]
  | findFirst root predicate state => exact h.findFirst root predicate state
  | hasAny root predicate state => rw [answer, answer, Graph.hasAny, h.findFirst, Graph.hasAny]

end Questions

/-! ## Two runs of a program -/

/-- Two runs that differ in places and in nothing else. -/
def anyPlace : Likeness where
  tables := Eq
  names _ _ := Eq
  spans _ _ := True
  lost _ := False
  oneToOne := by
    rintro _ _ _ a b _ _ rfl rfl
    exact Iff.rfl
  spelled := by
    rintro t _ rfl n _ rfl
    rfl
  intern_ok := by
    rintro t _ s n u rfl hs
    exact ⟨n, u, hs, rfl, rfl, fun _ _ h => h⟩
  intern_error := by
    rintro t _ s e rfl hs
    exact .inr hs
  lost_intern _ h := h

theorem anyPlace_self (c : Context) : anyPlace.Twins c c :=
  ⟨rfl, Graph.like_self (fun _ => trivial) c.graph⟩

/-- A command says the same with any two places. -/
theorem Command.like_placed (cmd : Command) (span span' : Span) :
    Command.Like Eq anyPlace.spans (cmd.placed span) (cmd.placed span') := by
  have hself : Command.Like Eq Eq (cmd.relabel id) (cmd.relabel id) := by
    refine cmd.like_relabel fun label _ => ?_
    cases label with
    | text s => exact .text s
    | name n => exact .name rfl
  rw [cmd.relabel_id] at hself
  cases hself with
  | make hwhat _ => exact .make hwhat trivial
  | intern text => exact .intern text
  | push parent e => exact .push parent e
  | freeze id => exact .freeze id
  | replace parent index e => exact .replace parent index e

namespace Program

/-- What has come of two runs differs in places only. -/
def Alike {α : Type} (x y : α × Context) : Prop := x.1 = y.1 ∧ anyPlace.Twins x.2 y.2

/-- Twins are told the same about a command. -/
theorem alike_told {c d : Context} (h : anyPlace.Twins c d) (cmd : Command) (span span' : Span) :
    Alike (told ((cmd.placed span).run c)) (told ((cmd.placed span').run d)) := by
  have hlike : Command.Like (anyPlace.names c.names d.names) anyPlace.spans (cmd.placed span)
      (cmd.placed span') := cmd.like_placed span span'
  have hmet := Likeness.met_command h hlike
  generalize (cmd.placed span).run c = r at hmet
  generalize (cmd.placed span').run d = r' at hmet
  cases hmet with
  | lost hlost => exact hlost.elim
  | error hgrown => exact ⟨rfl, hgrown.twins⟩
  | ok hgrown hreply =>
    refine ⟨congrArg Except.ok ?_, hgrown.twins⟩
    cases hreply with
    | named hn => exact congrArg Reply.named hn
    | made id => rfl
    | done => rfl
    | replaced old => rfl

variable {ι : Type} {place place' : ι → Span}

/-- Offers of alike rewriters go together. -/
theorem passCoupled_pass {σ ε : Type}
    {rewriter rewriter' : NodeId → σ → Context → (Except ε Action × σ) × Context}
    (h : ∀ id m {c d : Context}, anyPlace.Twins c d → Alike (rewriter id m c) (rewriter' id m d))
    (id : NodeId) :
    anyPlace.PassCoupled (fun _ _ => Eq) (pass rewriter id) (pass rewriter' id) := by
  refine ⟨fun _ hlost => hlost, fun s t hst => .inr ?_⟩
  have halike := h id s.memory hst.context
  rw [pass, pass, ← hst.memory]
  generalize rewriter id s.memory s.context = x at halike
  generalize rewriter' id s.memory t.context = y at halike
  obtain ⟨⟨answer, memory⟩, c⟩ := x
  obtain ⟨⟨answer', memory'⟩, d⟩ := y
  obtain ⟨hsame, htwins⟩ := halike
  obtain ⟨rfl, rfl⟩ := Prod.mk.inj hsame
  cases answer with
  | ok action => exact .ok ⟨htwins, rfl⟩
  | error cause => exact .error ⟨htwins, rfl⟩

/-- Twins are told the same about a pass, which remembers the same. -/
theorem told_pass {σ ε : Type}
    {rewriter rewriter' : NodeId → σ → Context → (Except ε Action × σ) × Context}
    (h : ∀ id m {c d : Context}, anyPlace.Twins c d → Alike (rewriter id m c) (rewriter' id m d))
    {c d : Context} (hcd : anyPlace.Twins c d) (depth : Nat) (root : NodeId) (memory : σ) :
    let x := told ((pass rewriter).run depth root ⟨c, memory⟩)
    let y := told ((pass rewriter').run depth root ⟨d, memory⟩)
    x.1 = y.1 ∧ anyPlace.PassTwins (fun _ _ => Eq) x.2 y.2 := by
  have hmeets := (anyPlace.passCoupled_run (fun _ _ => Eq) (passCoupled_pass h) depth root).meets
    ⟨c, memory⟩ ⟨d, memory⟩ ⟨hcd, rfl⟩
  -- the tables are the same, so neither run gets lost
  have hmatch := hmeets.resolve_left fun hlost => hlost
  generalize (pass rewriter).run depth root ⟨c, memory⟩ = r at hmatch
  generalize (pass rewriter').run depth root ⟨d, memory⟩ = r' at hmatch
  cases hmatch with
  | ok hst => exact ⟨rfl, hst⟩
  | error hst => exact ⟨rfl, hst⟩

/-- **Places make no difference to a program.** -/
theorem alike_eval {α : Type} (program : Program ι α) : ∀ {c d : Context}, anyPlace.Twins c d →
    Alike (program.eval place c) (program.eval place' d) := by
  induction program with
  | done result => exact fun h => ⟨rfl, h⟩
  | call cmd tag next ih =>
    intro c d h
    rw [eval, eval]
    obtain ⟨hreply, htwins⟩ := alike_told h cmd (place tag) (place' tag)
    dsimp only
    rw [hreply]
    exact ih _ htwins
  | ask query next ih =>
    intro c d h
    rw [eval, eval, query.answer_eq h.tables h.graph]
    exact ih _ h
  | rewrite depth root rewriter memory next hrewriter ih =>
    intro c d h
    rw [eval, eval]
    obtain ⟨houtcome, htwins⟩ := told_pass (fun id m _ _ => hrewriter id m) h depth root memory
    dsimp only
    rw [houtcome, htwins.memory]
    exact ih _ _ htwins.context

end Program

/-- **Spans are metadata.** Two runs of a program that give other places to what they make come to
the same result, which may be all that the program has been told; they leave equal tables of names
behind, and every question about what they leave behind has the same answer. -/
theorem spans_are_metadata {ι α : Type} (program : Program ι α) (place place' : ι → Span)
    (c : Context) :
    (program.eval place c).1 = (program.eval place' c).1
      ∧ (program.eval place c).2.names = (program.eval place' c).2.names
      ∧ ∀ {β : Type} (query : Query β),
        query.answer (program.eval place c).2 = query.answer (program.eval place' c).2 := by
  obtain ⟨hresult, htwins⟩ := program.alike_eval (anyPlace_self c)
  exact ⟨hresult, htwins.tables, fun query => query.answer_eq htwins.tables htwins.graph⟩

/-- The contexts themselves are not the same. -/
example :
    let program : Program Unit Unit :=
      .call (.make (.begin (.type .struct)) .dummy) () fun _ => .done ()
    (program.eval (fun _ => .point 1) .fresh).2 ≠ (program.eval (fun _ => .point 2) .fresh).2 := by
  decide +kernel

end SyntaxGraph
