import Mathlib.Data.List.Basic
import SyntaxGraph.Proofs.Reachable

/-!
# Two ways to make a node

A node is made at once, with all its children, or it is begun, given its children
one by one, and finished. The two ways look at different things in a different
order. At once the children are counted first, and a node that comes twice is
noticed by comparing edges. One by one the children are counted last, and a node
that comes twice has an owner by then; besides, the owners of the new node are
climbed for each child that it is to own.

They agree nevertheless. While the new node is under construction the rest of the
graph is as it was, but for the owners of what has been added so far, and the new
node has no owner to climb to.
-/

namespace SyntaxGraph

/-- Makes a node by beginning it, adding its children in order, and finishing it. -/
def Build.assemble (kind : Kind Name) (children : List Edge) (span : Span) : Build NodeId := do
  let id ← begin kind span
  children.forM (pushChild id)
  freeze id
  return id

namespace Graph

variable {g : Graph} {kind : Kind Name} {span : Span}

/-! ## A node under construction -/

/-- The graph with a new node that has some children but is not finished. -/
def underway (g : Graph) (kind : Kind Name) (span : Span) (children : List Edge) : Graph :=
  (g.insert kind children span).modify g.nextId fun node => { node with frozen := false }

theorem node?_underway (g : Graph) (kind : Kind Name) (span : Span) (children : List Edge)
    (id : NodeId) :
    (g.underway kind span children).node? id =
      if id = g.nextId then some ⟨kind, span, children, none, false⟩
      else (g.node? id).map fun node =>
        { node with parent := if Edge.owned id ∈ children then some g.nextId else node.parent } := by
  rw [underway, node?_modify, node?_insert]
  by_cases hid : id = g.nextId
  · simp [hid]
  · rw [if_neg (Ne.symm hid), if_neg hid, if_neg hid]

/-- A graph is known by its nodes. -/
theorem ext_node? {g g' : Graph} (h : ∀ id, g.node? id = g'.node? id) : g = g' := by
  obtain ⟨nodes⟩ := g
  obtain ⟨nodes'⟩ := g'
  exact congrArg Graph.mk (Array.ext_getElem? fun i => h ⟨i⟩)

theorem underway_nil (g : Graph) (kind : Kind Name) (span : Span) :
    g.underway kind span [] = g.begin kind span := by
  refine ext_node? fun id => ?_
  rw [node?_underway, node?_begin]
  simp

theorem addChild_underway {earlier : List Edge} {e : Edge} (he : e.target ≠ g.nextId) :
    (g.underway kind span earlier).addChild g.nextId e =
      g.underway kind span (earlier ++ [e]) := by
  refine ext_node? fun id => ?_
  rw [node?_addChild, node?_underway, node?_underway]
  by_cases hid : id = g.nextId
  · -- the edge does not own the node that it is added to
    have hne : e ≠ .owned g.nextId := fun h => he (by rw [h]; rfl)
    simp [hid, hne]
  · rw [if_neg hid, if_neg hid, Option.map_map]
    congr 1
    funext node
    by_cases hown : e = .owned id
    · simp [hid, hown]
    · have hlast : Edge.owned id ∈ earlier ++ [e] ↔ Edge.owned id ∈ earlier := by
        simp [Ne.symm hown]
      simp [hid, hown, hlast]

theorem finish_underway (children : List Edge) :
    (g.underway kind span children).finish g.nextId = g.insert kind children span := by
  refine ext_node? fun id => ?_
  rw [node?_finish, node?_underway, node?_insert]
  by_cases hid : id = g.nextId
  · simp [hid]
  · rw [if_neg hid, if_neg hid, Option.map_map]
    congr 1
    funext node
    simp [hid]

/-! ## What is checked under construction -/

theorem fits_underway {earlier : List Edge} {index : Nat} {id : NodeId} (hid : id ≠ g.nextId) :
    (g.underway kind span earlier).Fits kind index id ↔ g.Fits kind index id := by
  unfold Fits
  rw [node?_underway, if_neg hid]
  constructor
  · rintro ⟨node, hn, hslot⟩
    obtain ⟨before, hbefore, rfl⟩ := Option.map_eq_some_iff.mp hn
    exact ⟨before, hbefore, hslot⟩
  · rintro ⟨node, hn, hslot⟩
    exact ⟨_, congrArg (Option.map _) hn, hslot⟩

/-- Of the nodes that were free, those are no longer that were added. -/
theorem free_underway {earlier : List Edge} {child : NodeId} (hchild : child ≠ g.nextId) :
    (g.underway kind span earlier).Free child ↔ g.Free child ∧ Edge.owned child ∉ earlier := by
  have hfrozen : (g.underway kind span earlier).isFrozen child = g.isFrozen child := by
    rw [isFrozen, node?_underway, if_neg hchild, Option.map_map, isFrozen]
    rfl
  constructor
  · rintro ⟨hf, hp⟩
    rw [hfrozen] at hf
    obtain ⟨node, hn⟩ := mem_iff_node?.mp (mem_of_isFrozen hf)
    rw [parent?, node?_underway, if_neg hchild, hn, Option.map_some, Option.bind_some] at hp
    by_cases hearlier : Edge.owned child ∈ earlier
    · rw [if_pos hearlier] at hp
      exact absurd hp (by simp)
    · rw [if_neg hearlier] at hp
      exact ⟨⟨hf, by rw [parent?, hn]; exact hp⟩, hearlier⟩
  · rintro ⟨⟨hf, hp⟩, hearlier⟩
    refine ⟨hfrozen.trans hf, ?_⟩
    obtain ⟨node, hn⟩ := mem_iff_node?.mp (mem_of_isFrozen hf)
    rw [parent?, hn] at hp
    rw [parent?, node?_underway, if_neg hchild, hn, Option.map_some, Option.bind_some,
      if_neg hearlier]
    exact hp

/-- **The search for a cycle finds none**: the new node has no owner. -/
theorem isAbove_underway {earlier : List Edge} {child : NodeId} (hchild : child ≠ g.nextId) :
    (g.underway kind span earlier).isAbove child g.nextId = .ok false := by
  rw [isAbove, isAboveWithin, if_neg (Ne.symm hchild), node?_underway, if_pos rfl]

theorem checkPush_underway {earlier : List Edge} {e : Edge} (he : e.target ≠ g.nextId) :
    (g.underway kind span earlier).checkPush g.nextId e = .ok () ↔
      g.Fits kind earlier.length e.target
        ∧ ∀ child, e = .owned child → g.Free child ∧ e ∉ earlier := by
  have hnode := node?_underway g kind span earlier g.nextId
  rw [if_pos rfl] at hnode
  have hadopt : (g.underway kind span earlier).Adoptable g.nextId e ↔
      ∀ child, e = .owned child → g.Free child ∧ e ∉ earlier := by
    refine forall_congr' fun child => forall_congr' fun hown => ?_
    subst hown
    have hchild : child ≠ g.nextId := he
    rw [free_underway hchild, isAbove_underway hchild]
    exact and_iff_left rfl
  simp only [checkPush_eq_ok, hnode, Option.some.injEq, exists_eq_left', true_and, hadopt,
    fits_underway he]

theorem checkFreeze_underway (children : List Edge) :
    (g.underway kind span children).checkFreeze g.nextId = .ok () ↔
      kind.layout.acceptsLength children.length = true := by
  have hnode := node?_underway g kind span children g.nextId
  rw [if_pos rfl] at hnode
  simp only [checkFreeze_eq_ok, hnode, Option.some.injEq, exists_eq_left', true_and]

end Graph

/-! ## The two ways agree -/

namespace Build

theorem pushChild_eq_ok {parent : NodeId} {e : Edge} {c c' : Context} :
    pushChild parent e c = .ok () c' ↔ c.graph.checkPush parent e = .ok ()
      ∧ c' = { c with graph := c.graph.addChild parent e } := by
  unfold pushChild check write
  cases h : c.graph.checkPush parent e <;> simp [bind, EStateM.bind, h, eq_comm]

theorem freeze_eq_ok {id : NodeId} {c c' : Context} :
    freeze id c = .ok () c' ↔ c.graph.checkFreeze id = .ok ()
      ∧ c' = { c with graph := c.graph.finish id } := by
  unfold freeze check write
  cases h : c.graph.checkFreeze id <;> simp [bind, EStateM.bind, h, eq_comm]

/-- Adding children one by one is refused when adding them at once is, and leads to the same
children. -/
theorem pushAll_eq_ok {g : Graph} {names : Interner} {kind : Kind Name} {span : Span} {c' : Context}
    (rest : List Edge) : ∀ {earlier : List Edge}, (∀ e ∈ rest, e.target ≠ g.nextId) →
      (rest.forM (pushChild g.nextId) ⟨g.underway kind span earlier, names⟩ = .ok () c' ↔
        g.checkChildren kind earlier rest = .ok ()
          ∧ c' = ⟨g.underway kind span (earlier ++ rest), names⟩) := by
  induction rest with
  | nil =>
    intro earlier _
    simp [Graph.checkChildren, List.forM, pure, EStateM.pure, eq_comm]
  | cons e rest ih =>
    intro earlier hrest
    obtain ⟨he, hrest⟩ := List.forall_mem_cons.mp hrest
    have hstep : ∀ {c'' : Context},
        pushChild g.nextId e ⟨g.underway kind span earlier, names⟩ = .ok () c'' ↔
          (g.Fits kind earlier.length e.target ∧ ∀ child, e = .owned child →
            g.Free child ∧ e ∉ earlier) ∧ c'' = ⟨g.underway kind span (earlier ++ [e]), names⟩ := by
      intro c''
      rw [pushChild_eq_ok, Graph.checkPush_underway he, Graph.addChild_underway he]
    show (pushChild g.nextId e >>= fun _ => rest.forM (pushChild g.nextId)) _ = _ ↔ _
    rw [run_bind_eq_ok, Graph.checkChildren_cons_eq_ok]
    constructor
    · rintro ⟨_, c'', hpush, hall⟩
      obtain ⟨⟨hfits, hown⟩, rfl⟩ := hstep.mp hpush
      obtain ⟨hcheck, hc'⟩ := (ih hrest).mp hall
      exact ⟨⟨hfits, hown, hcheck⟩, by rw [hc', List.append_assoc, List.singleton_append]⟩
    · rintro ⟨⟨hfits, hown, hcheck⟩, hc'⟩
      refine ⟨(), _, hstep.mpr ⟨⟨hfits, hown⟩, rfl⟩, (ih hrest).mpr ⟨hcheck, ?_⟩⟩
      rw [hc', List.append_assoc, List.singleton_append]

theorem assemble_eq_ok {kind : Kind Name} {children : List Edge} {span : Span} {c c' : Context}
    {id : NodeId} (h : ∀ e ∈ children, e.target ≠ c.graph.nextId) :
    assemble kind children span c = .ok id c' ↔ c.graph.checkCreate kind children = .ok ()
      ∧ c.graph.HasRoom 1 ∧ id = c.graph.nextId
      ∧ c' = { c with graph := c.graph.insert kind children span } := by
  obtain ⟨g, names⟩ := c
  dsimp only at h ⊢
  have hbegin : ∀ {id' c''}, begin kind span ⟨g, names⟩ = .ok id' c'' ↔
      g.HasRoom 1 ∧ id' = g.nextId ∧ c'' = ⟨g.underway kind span [], names⟩ := by
    rw [Graph.underway_nil]
    exact begin_eq_ok
  have hpushAll : ∀ {c''}, children.forM (pushChild g.nextId) ⟨g.underway kind span [], names⟩ =
      .ok () c'' ↔ g.checkChildren kind [] children = .ok ()
        ∧ c'' = ⟨g.underway kind span children, names⟩ :=
    pushAll_eq_ok children h
  rw [assemble, run_bind_eq_ok, Graph.checkCreate, Graph.then_eq_ok, Graph.checkArity_eq_ok]
  constructor
  · rintro ⟨_, _, hb, hrun⟩
    obtain ⟨hroom, rfl, rfl⟩ := hbegin.mp hb
    obtain ⟨_, _, hpush, hrun⟩ := run_bind_eq_ok.mp hrun
    obtain ⟨hchildren, rfl⟩ := hpushAll.mp hpush
    obtain ⟨_, _, hfreeze, hrun⟩ := run_bind_eq_ok.mp hrun
    obtain ⟨hcount, rfl⟩ := freeze_eq_ok.mp hfreeze
    cases hrun
    rw [Graph.checkFreeze_underway] at hcount
    exact ⟨⟨hcount, hchildren⟩, hroom, rfl, by rw [Graph.finish_underway]⟩
  · rintro ⟨⟨hcount, hchildren⟩, hroom, rfl, rfl⟩
    have hpush := hpushAll.mpr ⟨hchildren, rfl⟩
    have hfreeze : freeze g.nextId ⟨g.underway kind span children, names⟩ =
        .ok () ⟨g.insert kind children span, names⟩ :=
      freeze_eq_ok.mpr ⟨(Graph.checkFreeze_underway children).mpr hcount, by
        rw [Graph.finish_underway]⟩
    exact ⟨_, _, hbegin.mpr ⟨hroom, rfl, rfl⟩,
      run_bind_eq_ok.mpr ⟨_, _, hpush, run_bind_eq_ok.mpr ⟨_, _, hfreeze, rfl⟩⟩⟩

end Build

/-- **A node made at once is the node made step by step.** Unless an edge leads to the new node
itself, the one way succeeds exactly if the other one does, answers the same id and leads to the
same context. -/
theorem create_iff_assemble (c : Context) (kind : Kind Name) (children : List Edge) (span : Span)
    (h : ∀ e ∈ children, e.target ≠ c.graph.nextId) (id : NodeId) (c' : Context) :
    Build.create kind children span c = .ok id c' ↔
      Build.assemble kind children span c = .ok id c' := by
  rw [Build.create_eq_ok, Build.assemble_eq_ok h]

/-- Either way a new field takes over the wrapper that the sample record has let go. -/
theorem create_iff_assemble_linkedRecord :
    (∀ e ∈ [Edge.owned ⟨1⟩], e.target ≠ (runAll linkedRecord .fresh).graph.nextId)
      ∧ ∃ c, Build.create (.declaration (.field (.ofParts 3 0))) [.owned ⟨1⟩] .dummy
          (runAll linkedRecord .fresh) = .ok ⟨4⟩ c
        ∧ Build.assemble (.declaration (.field (.ofParts 3 0))) [.owned ⟨1⟩] .dummy
          (runAll linkedRecord .fresh) = .ok ⟨4⟩ c
        ∧ c.graph.parent? ⟨1⟩ = some ⟨4⟩ := by
  have hne : ∀ e ∈ [Edge.owned ⟨1⟩], e.target ≠ (runAll linkedRecord .fresh).graph.nextId := by
    decide +kernel
  have hcheck : (runAll linkedRecord .fresh).graph.checkCreate
      (.declaration (.field (.ofParts 3 0))) [.owned ⟨1⟩] = .ok () := by
    decide +kernel
  have hroom : (runAll linkedRecord .fresh).graph.HasRoom 1 := by decide +kernel
  have hnext : (⟨4⟩ : NodeId) = (runAll linkedRecord .fresh).graph.nextId := by decide +kernel
  refine ⟨hne, _, Build.create_eq_ok.mpr ⟨hcheck, hroom, hnext, rfl⟩, ?_, ?_⟩
  · rw [← create_iff_assemble _ _ _ _ hne]
    exact Build.create_eq_ok.mpr ⟨hcheck, hroom, hnext, rfl⟩
  · decide +kernel

end SyntaxGraph
