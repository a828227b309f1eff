import SyntaxGraph.Proofs.Depth
import SyntaxGraph.Proofs.Layouts
import SyntaxGraph.Proofs.Monotone

/-!
# Names are looked up once

A pass that looks names up leaves resolved trees alone and lets a named type
refer to the type that is known under the name. Whatever is known is resolved, so
nothing that it puts in place is refused: the named type was unresolved, and the
slot asks for a type.

One run is enough. All that a run does is to turn owned children into references,
and what is resolved stays so (`Narrows`). A second run therefore meets no node
that the first one has not met. Where the first one left a node alone since it
was resolved, so does the second one; where the first one went on below a node,
the second one finds its owned children spent or the node itself resolved by now
(`Spent`).
-/

namespace SyntaxGraph

/-! ## The pass -/

/-- What is known under the name of a named type. -/
def Kind.known? (known : Name → Option NodeId) : Kind Name → Option NodeId
  | .type (.name name) => known name
  | _ => none

/-- Leaves a resolved node alone, lets a named type refer to what is known under its name, and goes
on below any other node. -/
def Pass.lookUp {σ ε : Type} (known : Name → Option NodeId) : Pass σ ε := fun id => do
  if ← PassM.ask (·.isResolved id) then return .prune
  let node ← PassM.ask (·.read id)
  match node.kind.known? known with
  | some type => return .replace (.ref type)
  | none => return .descend

namespace Graph

variable {g : Graph} {known : Name → Option NodeId}

/-- What is known under the name of the node, if it is a named type. -/
def known? (g : Graph) (known : Name → Option NodeId) (id : NodeId) : Option NodeId :=
  (g.kind? id).bind (Kind.known? known)

/-- Whatever is known is a resolved type of the graph. -/
def Founded (g : Graph) (known : Name → Option NodeId) : Prop :=
  ∀ name type, known name = some type →
    g.Resolved type ∧ ∃ shape, g.kind? type = some (.type shape)

/-- Nothing is left to be looked up in the tree of the node: it is resolved, or it is not known and
the same holds of its owned children. -/
inductive Spent (g : Graph) (known : Name → Option NodeId) : NodeId → Prop where
  | resolved {id : NodeId} : id ∈ g → g.Resolved id → Spent g known id
  | passed {id : NodeId} : g.known? known id = none →
    (∀ index child, g.edge? id index = some (.owned child) → Spent g known child) →
    Spent g known id

/-- Only named types are looked up, and they are unresolved. -/
theorem named_of_known? {id type : NodeId} (h : g.known? known id = some type) :
    ∃ name, g.kind? id = some (.type (.name name)) ∧ known name = some type := by
  obtain ⟨kind, hkind, hknown⟩ := Option.bind_eq_some_iff.mp h
  cases kind with
  | type shape =>
    cases shape with
    | name name => exact ⟨name, hkind, hknown⟩
    | _ => simp [Kind.known?] at hknown
  | _ => simp [Kind.known?] at hknown

theorem Founded.resolved_mem (h : g.Founded known) {name : Name} {type : NodeId}
    (hname : known name = some type) : g.Resolved type ∧ type ∈ g := by
  obtain ⟨hresolved, shape, hkind⟩ := h name type hname
  obtain ⟨node, hn, -⟩ := Option.map_eq_some_iff.mp hkind
  exact ⟨hresolved, mem_iff_node?.mpr ⟨node, hn⟩⟩

/-- A named type in a slot may be replaced by a reference to what is known. -/
theorem Founded.checkReplace (hknown : g.Founded known) (hclosed : g.Closed) (hlaid : LaidOut g)
    {parent child type : NodeId} {index : Nat} (hedge : g.edge? parent index = some (.owned child))
    (htype : g.known? known child = some type) (hchild : ¬ g.Resolved child) :
    g.checkReplace parent index (.ref type) = .ok (.owned child) := by
  obtain ⟨name, hkind, hname⟩ := named_of_known? htype
  obtain ⟨-, shape, hshape⟩ := hknown name type hname
  obtain ⟨found, hfound, hfoundKind⟩ := Option.map_eq_some_iff.mp hshape
  obtain ⟨node, hn⟩ := mem_iff_node?.mp (mem_of_edge? hedge)
  -- the slot asks for a type, since there is one in it
  have hfits : g.Fits node.kind index type := by
    obtain ⟨target, htarget, hslot⟩ := hlaid.fits parent node.kind (kind?_of_node? hn) index _ hedge
    have htargetKind : target.kind = .type (.name name) :=
      Option.some.inj ((kind?_of_node? htarget).symm.trans hkind)
    refine ⟨found, hfound, hslot.trans ?_⟩
    rw [Node.category, htargetKind, Node.category, hfoundKind]
    rfl
  -- and the named type in it is not resolved
  have hregress : g.NoRegress child type := by
    obtain ⟨answer, hask, hiff⟩ := isResolved_eq_ok hclosed (hclosed.target_mem hedge)
    exact ⟨answer, hask, fun h => absurd (hiff.mp h) hchild⟩
  exact checkReplace_eq_ok.mpr ⟨node, hn, (edge?_of_node? hn index).symm.trans hedge,
    fun _ => ⟨hfits, fun _ h => Edge.noConfusion h, hregress⟩⟩

end Graph

section Passes

variable {σ ε : Type} {known : Name → Option NodeId}

/-- **What the pass answers** depends on whether the node is resolved and, if it is not, on whether
it is known. -/
theorem Pass.lookUp_eq_ok {id : NodeId} {s : PassState σ} (hclosed : s.context.graph.Closed)
    (hid : id ∈ s.context.graph) :
    ∃ action, Pass.lookUp (ε := ε) known id s = .ok action s
      ∧ (s.context.graph.Resolved id ∧ action = .prune
        ∨ ¬ s.context.graph.Resolved id ∧
          (s.context.graph.known? known id = none ∧ action = .descend
            ∨ ∃ type, s.context.graph.known? known id = some type
              ∧ action = .replace (.ref type))) := by
  obtain ⟨resolved, hask, hiff⟩ := Graph.isResolved_eq_ok hclosed hid
  obtain ⟨node, hn⟩ := Graph.mem_iff_node?.mp hid
  have hknown : s.context.graph.known? known id = node.kind.known? known := by
    rw [Graph.known?, Graph.kind?_of_node? hn, Option.bind_some]
  cases resolved with
  | true =>
    refine ⟨.prune, ?_, .inl ⟨hiff.mp rfl, rfl⟩⟩
    simp [lookUp, bind, EStateM.bind, PassM.ask, hask, pure, EStateM.pure]
  | false =>
    have hnot : ¬ s.context.graph.Resolved id := fun h => Bool.noConfusion (hiff.mpr h)
    rw [hknown]
    cases hkind : node.kind.known? known with
    | none =>
      refine ⟨.descend, ?_, .inr ⟨hnot, .inl ⟨rfl, rfl⟩⟩⟩
      simp [lookUp, bind, EStateM.bind, PassM.ask, hask, Graph.read_of_node? hn, hkind, pure,
        EStateM.pure]
    | some type =>
      refine ⟨.replace (.ref type), ?_, .inr ⟨hnot, .inr ⟨type, rfl, rfl⟩⟩⟩
      simp [lookUp, bind, EStateM.bind, PassM.ask, hask, Graph.read_of_node? hn, hkind, pure,
        EStateM.pure]

theorem Pass.answers_lookUp : (Pass.lookUp (σ := σ) (ε := ε) known).Answers := by
  intro id s hc hid
  obtain ⟨action, hoffer, _⟩ := lookUp_eq_ok (ε := ε) (Graph.closed_reachable hc) hid
  exact ⟨action, s.memory, hoffer⟩

/-! ## What one run does -/

/-- From the one state to the other nothing has changed but that owned children have become
references, and resolved nodes are still resolved. -/
structure Narrows (s t : PassState σ) : Prop where
  memory : t.memory = s.memory
  names : t.context.names = s.context.names
  size : t.context.graph.size = s.context.graph.size
  kind : ∀ id, t.context.graph.kind? id = s.context.graph.kind? id
  resolved : ∀ id ∈ s.context.graph, s.context.graph.Resolved id → t.context.graph.Resolved id
  owned : ∀ id index child, t.context.graph.edge? id index = some (.owned child) →
    s.context.graph.edge? id index = some (.owned child)

variable {s t u : PassState σ}

theorem Narrows.mem_iff (h : Narrows s t) {id : NodeId} :
    id ∈ t.context.graph ↔ id ∈ s.context.graph := by
  rw [Graph.mem_def, Graph.mem_def, h.size]

theorem narrows_refl (s : PassState σ) : Narrows s s :=
  ⟨rfl, rfl, rfl, fun _ => rfl, fun _ _ h => h, fun _ _ _ h => h⟩

theorem Narrows.trans (h : Narrows s t) (h' : Narrows t u) : Narrows s u where
  memory := h'.memory.trans h.memory
  names := h'.names.trans h.names
  size := h'.size.trans h.size
  kind id := (h'.kind id).trans (h.kind id)
  resolved id hid hr := h'.resolved id (h.mem_iff.mpr hid) (h.resolved id hid hr)
  owned id index child he := h.owned id index child (h'.owned id index child he)

theorem Narrows.known? (h : Narrows s t) (id : NodeId) :
    t.context.graph.known? known id = s.context.graph.known? known id := by
  rw [Graph.known?, Graph.known?, h.kind]

theorem Narrows.founded (h : Narrows s t) (hknown : s.context.graph.Founded known) :
    t.context.graph.Founded known := by
  intro name type hname
  obtain ⟨hresolved, hmem⟩ := hknown.resolved_mem hname
  obtain ⟨_, shape, hkind⟩ := hknown name type hname
  exact ⟨h.resolved type hmem hresolved, shape, (h.kind type).trans hkind⟩

/-- **What is spent stays spent.** -/
theorem Narrows.spent (h : Narrows s t) {id : NodeId} (hspent : s.context.graph.Spent known id) :
    t.context.graph.Spent known id := by
  induction hspent with
  | resolved hid hr => exact .resolved (h.mem_iff.mpr hid) (h.resolved _ hid hr)
  | passed hnone _ ih =>
    exact .passed ((h.known? _).trans hnone) fun index child he =>
      ih index child (h.owned _ index child he)

/-- **A named type in a slot can refer to what is known.** The replacement is never refused. -/
theorem narrows_replaceChild (hc : Reachable s.context) (hknown : s.context.graph.Founded known)
    {parent child type : NodeId} {index : Nat}
    (hedge : s.context.graph.edge? parent index = some (.owned child))
    (htype : s.context.graph.known? known child = some type)
    (hchild : ¬ s.context.graph.Resolved child) :
    ∃ t, PassM.replaceChild (ε := ε) parent index (.ref type) s = .ok 1 t ∧ Reachable t.context
      ∧ Narrows s t ∧ t.context.graph.edge? parent index = some (.ref type) := by
  have hclosed := Graph.closed_reachable hc
  have hcheck := hknown.checkReplace hclosed (Graph.laidOut_reachable hc) hedge htype hchild
  have hne : Edge.owned child ≠ .ref type := Edge.noConfusion
  have hrun := replaceChild_of_ok (ε := ε) hcheck hne
  have hset := Graph.edge?_setChild hedge (.ref type)
  obtain ⟨_, hkeeps⟩ := Graph.keeps_setChild hcheck hne hclosed
  refine ⟨_, hrun, reachable_of_replaceChild hc hrun, ⟨rfl, rfl, ?_, fun id => ?_, ?_, ?_⟩, ?_⟩
  · simp [Graph.setChild]
  · exact Graph.kind?_setChild parent index _ _ id
  · exact fun id hid => (hkeeps id hid).2
  · intro id i other he
    rw [hset] at he
    split at he
    · exact absurd he (by simp)
    · exact he
  · exact (hset parent index).trans (if_pos ⟨rfl, rfl⟩)

/-- The pass has run out of depth. -/
def RunsOut (cause : PassError ε) : Prop := cause = .node (.fault .unending)

/-- Since the first state the slots of the node have been visited, apart from those that are left,
and what they own is spent. -/
structure Visited (known : Name → Option NodeId) (top : NodeId) (s : PassState σ) (rest : List Nat)
    (t : PassState σ) : Prop where
  reachable : Reachable t.context
  narrows : Narrows s t
  spent : ∀ index ∉ rest, ∀ child, t.context.graph.edge? top index = some (.owned child) →
    t.context.graph.Spent known child

/-- One slot is left less once what it owns is spent. -/
theorem Visited.next {top : NodeId} {index : Nat} {rest : List Nat}
    (h : Visited known top s (index :: rest) t) (hu : Reachable u.context) (hnarrows : Narrows t u)
    (hspent : ∀ child, u.context.graph.edge? top index = some (.owned child) →
      u.context.graph.Spent known child) : Visited known top s rest u := by
  refine ⟨hu, h.narrows.trans hnarrows, fun i hi child hedge => ?_⟩
  by_cases heq : i = index
  · exact hspent child (heq ▸ hedge)
  · refine hnarrows.spent (h.spent i (fun hmem => ?_) child (hnarrows.owned _ _ _ hedge))
    exact (List.mem_cons.mp hmem).elim heq hi

/-- The pass visits a slot: what the slot owns is resolved, or known, or spent when the pass comes
back from below it. -/
theorem Visited.atSlot {top : NodeId} {index : Nat} {rest : List Nat}
    (h : Visited known top s (index :: rest) t) (hknown : s.context.graph.Founded known)
    {below : NodeId → PassM σ ε Nat}
    (hbelow : ∀ child ∈ t.context.graph, t.context.graph.known? known child = none →
      Yields RunsOut (below child) t fun _ u =>
        Reachable u.context ∧ Narrows t u ∧ u.context.graph.Spent known child) (changed : Nat) :
    Yields RunsOut ((Pass.lookUp known).atSlot below top changed index) t fun _ =>
      Visited known top s rest := by
  refine Pass.yields_atSlot (fun hvacant => ?_) fun child hedge => ?_
  · exact h.next h.reachable (narrows_refl t) fun child he => absurd he (hvacant child)
  have honly : ∀ {other : NodeId}, t.context.graph.edge? top index = some (.owned other) →
      child = other := fun he => Edge.owned.inj (Option.some.inj (hedge.symm.trans he))
  have hclosed := Graph.closed_reachable h.reachable
  have hchild : child ∈ t.context.graph := hclosed.target_mem hedge
  obtain ⟨action, hoffer, hanswer⟩ := Pass.lookUp_eq_ok (ε := ε) hclosed hchild
  refine (yields_of_ok hoffer).mpr ?_
  rcases hanswer with ⟨hresolved, rfl⟩ | ⟨hnot, ⟨hunknown, rfl⟩ | ⟨type, htype, rfl⟩⟩
  · refine h.next h.reachable (narrows_refl t) fun other he => ?_
    exact honly he ▸ .resolved hchild hresolved
  · refine (hbelow child hchild hunknown).mono fun _ u hu => ?_
    refine h.next hu.1 hu.2.1 fun other he => ?_
    exact honly (hu.2.1.owned _ _ _ he) ▸ hu.2.2
  · obtain ⟨u, hreplace, hu, hnarrows, hedge'⟩ :=
      narrows_replaceChild (ε := ε) h.reachable (h.narrows.founded hknown) hedge htype hnot
    refine (yields_of_ok hreplace).mpr (h.next hu hnarrows fun other he => ?_)
    exact absurd (hedge'.symm.trans he) (by simp)

/-- **Below a node nothing is left to be looked up after a run.** -/
theorem spent_runBelow (depth : Nat) : ∀ (top : NodeId) (s : PassState σ), Reachable s.context →
    s.context.graph.Founded known → top ∈ s.context.graph →
      s.context.graph.known? known top = none →
        Yields RunsOut ((Pass.lookUp (ε := ε) known).runBelow depth top) s fun _ t =>
          Reachable t.context ∧ Narrows s t ∧ t.context.graph.Spent known top := by
  induction depth with
  | zero => exact fun _ _ _ _ _ _ => rfl
  | succ depth ih =>
    intro top s hc hknown htop hnone
    obtain ⟨node, hn⟩ := Graph.mem_iff_node?.mp htop
    have hfirst : Visited known top s (List.range node.children.length) s := by
      refine ⟨hc, narrows_refl s, fun index hindex child hedge => ?_⟩
      rw [Graph.edge?_of_node? hn] at hedge
      exact absurd (List.mem_range.mpr (List.getElem?_eq_some_iff.mp hedge).1) hindex
    have hlast : Yields RunsOut ((Pass.lookUp (ε := ε) known).runBelow (depth + 1) top) s
        fun _ => Visited known top s [] := by
      refine Pass.yields_runBelow (I := fun rest _ => Visited known top s rest) hn ?_ hfirst
      exact fun changed index rest t ht => ht.atSlot hknown (fun child hchild hunknown =>
        ih child t ht.reachable (ht.narrows.founded hknown) hchild hunknown) changed
    refine hlast.mono fun _ t ht => ⟨ht.reachable, ht.narrows, .passed ?_ fun index => ?_⟩
    · exact (ht.narrows.known? top).trans hnone
    · exact ht.spent index (by simp)

/-- **After a run from a root on nothing is left to be looked up** in the tree of the outcome. -/
theorem spent_run (hc : Reachable s.context) (hknown : s.context.graph.Founded known)
    {root : NodeId} (hroot : root ∈ s.context.graph) (depth : Nat) :
    Yields RunsOut ((Pass.lookUp (ε := ε) known).run depth root) s fun outcome t =>
      Reachable t.context ∧ Narrows s t ∧ outcome.root ∈ t.context.graph
        ∧ t.context.graph.Spent known outcome.root := by
  obtain ⟨action, hoffer, hanswer⟩ :=
    Pass.lookUp_eq_ok (ε := ε) (Graph.closed_reachable hc) hroot
  refine Pass.yields_run ((yields_of_ok hoffer).mpr ?_)
  rcases hanswer with ⟨hresolved, rfl⟩ | ⟨-, ⟨hunknown, rfl⟩ | ⟨type, htype, rfl⟩⟩
  · exact ⟨hc, narrows_refl s, hroot, .resolved hroot hresolved⟩
  · refine (spent_runBelow depth root s hc hknown hroot hunknown).mono fun _ t ht => ?_
    exact ⟨ht.1, ht.2.1, ht.2.1.mem_iff.mpr hroot, ht.2.2⟩
  · obtain ⟨name, -, hname⟩ := Graph.named_of_known? htype
    obtain ⟨hresolved, hmem⟩ := hknown.resolved_mem hname
    exact ⟨hc, narrows_refl s, hmem, .resolved hmem hresolved⟩

/-! ## What the next run does -/

/-- A node where nothing is left to be looked up is left alone, or passed on the way to its owned
children, and nothing is left to be looked up there. -/
theorem Pass.lookUp_of_spent {id : NodeId} (hclosed : s.context.graph.Closed)
    (hid : id ∈ s.context.graph) (hspent : s.context.graph.Spent known id) :
    ∃ action, Pass.lookUp (ε := ε) known id s = .ok action s
      ∧ (action = .prune ∨ action = .descend ∧ ∀ index child,
        s.context.graph.edge? id index = some (.owned child) →
          s.context.graph.Spent known child) := by
  obtain ⟨action, hoffer, hanswer⟩ := Pass.lookUp_eq_ok (ε := ε) hclosed hid
  refine ⟨action, hoffer, ?_⟩
  rcases hanswer with ⟨-, rfl⟩ | ⟨hnot, hanswer⟩
  · exact .inl rfl
  cases hspent with
  | resolved _ hr => exact absurd hr hnot
  | passed hnone hchildren =>
    rcases hanswer with ⟨-, rfl⟩ | ⟨type, htype, -⟩
    · exact .inr ⟨rfl, hchildren⟩
    · exact absurd (htype.symm.trans hnone) (by simp)

/-- **Where nothing is left to be looked up a run changes nothing.** -/
theorem idle_runBelow (depth : Nat) : ∀ (top : NodeId), Reachable s.context →
    top ∈ s.context.graph →
      (∀ index child, s.context.graph.edge? top index = some (.owned child) →
        s.context.graph.Spent known child) →
        Yields RunsOut ((Pass.lookUp (ε := ε) known).runBelow depth top) s fun n t =>
          n = 0 ∧ t = s := by
  induction depth with
  | zero => exact fun _ _ _ _ => rfl
  | succ depth ih =>
    intro top hc htop hchildren
    have hclosed := Graph.closed_reachable hc
    obtain ⟨node, hn⟩ := Graph.mem_iff_node?.mp htop
    refine Pass.yields_runBelow (I := fun _ changed t => changed = 0 ∧ t = s) hn ?_ ⟨rfl, rfl⟩
    intro changed index rest t ht
    rw [ht.1, ht.2]
    refine Pass.yields_atSlot (fun _ => ⟨rfl, rfl⟩) fun child hedge => ?_
    have hchild : child ∈ s.context.graph := hclosed.target_mem hedge
    obtain ⟨action, hoffer, rfl | ⟨rfl, hbelow⟩⟩ :=
      Pass.lookUp_of_spent (ε := ε) hclosed hchild (hchildren index child hedge)
    · exact (yields_of_ok hoffer).mpr ⟨rfl, rfl⟩
    · refine (yields_of_ok hoffer).mpr ((ih child hc hchild hbelow).mono fun n u hu => ?_)
      exact ⟨(Nat.zero_add n).trans hu.1, hu.2⟩

theorem idle_run (hc : Reachable s.context) {root : NodeId} (hroot : root ∈ s.context.graph)
    (hspent : s.context.graph.Spent known root) (depth : Nat) :
    Yields RunsOut ((Pass.lookUp (ε := ε) known).run depth root) s fun outcome t =>
      outcome = ⟨root, 0⟩ ∧ t = s := by
  obtain ⟨action, hoffer, rfl | ⟨rfl, hbelow⟩⟩ :=
    Pass.lookUp_of_spent (ε := ε) (Graph.closed_reachable hc) hroot hspent
  · exact Pass.yields_run ((yields_of_ok hoffer).mpr ⟨rfl, rfl⟩)
  · refine Pass.yields_run ((yields_of_ok hoffer).mpr ?_)
    refine (idle_runBelow depth root hc hroot hbelow).mono fun n t hn => ?_
    exact ⟨hn.1 ▸ rfl, hn.2⟩

/-- **The pass has an outcome**, and the same one however deep it may go, if that is as deep as the
graph has nodes: it does not run out of depth, and nothing that it puts in place is refused. -/
theorem lookUp_run_eq_ok {Q : PassOutcome → PassState σ → Prop} (hc : Reachable s.context)
    {root : NodeId} (hroot : root ∈ s.context.graph)
    (h : Yields RunsOut ((Pass.lookUp (ε := ε) known).run s.context.graph.size root) s Q) :
    ∃ outcome t, Q outcome t ∧ ∀ depth, s.context.graph.size ≤ depth →
      (Pass.lookUp (ε := ε) known).run depth root s = .ok outcome t := by
  have hplace : ∀ new memory, Pass.lookUp (ε := ε) known root s =
      .ok (.replace (.owned new)) ⟨s.context, memory⟩ → new ∈ s.context.graph := by
    intro new memory hplaced
    obtain ⟨action, hoffer, hanswer⟩ :=
      @Pass.lookUp_eq_ok σ ε known root s (Graph.closed_reachable hc) hroot
    obtain ⟨rfl, -⟩ := EStateM.Result.ok.inj (hoffer.symm.trans hplaced)
    simp at hanswer
  have hends := refusal_run Pass.answers_lookUp hc hroot hplace (Nat.le_refl _)
  cases hrun : (Pass.lookUp (ε := ε) known).run s.context.graph.size root s with
  | error cause t =>
    rw [Yields, hrun] at h hends
    exact absurd (h ▸ hends) (not_refusal_fault _)
  | ok outcome t =>
    refine ⟨outcome, t, (yields_of_ok hrun).mp h, fun depth hle => ?_⟩
    exact (run_eq_of_yields hends (not_refusal_fault _) hle).trans hrun

end Passes

/-- **Names are looked up once.** A pass that lets each named type refer to the resolved type that
is known under its name, and leaves alone what is resolved, always has an outcome. It makes no
nodes, and the next run from there changes nothing at all. -/
theorem names_looked_up_once {c : Context} (hc : Reachable c) {known : Name → Option NodeId}
    (hknown : c.graph.Founded known) (root : NodeId) (hroot : root ∈ c.graph) {σ ε : Type}
    (memory : σ) :
    ∃ outcome c',
      (∀ depth, c.graph.size ≤ depth →
        (Pass.lookUp known : Pass σ ε).run depth root ⟨c, memory⟩ = .ok outcome ⟨c', memory⟩)
      ∧ c'.graph.size = c.graph.size ∧ c'.names = c.names
      ∧ ∀ depth, c.graph.size ≤ depth →
        (Pass.lookUp known : Pass σ ε).run depth outcome.root ⟨c', memory⟩ =
          .ok ⟨outcome.root, 0⟩ ⟨c', memory⟩ := by
  obtain ⟨outcome, ⟨c', memory'⟩, ⟨hc', hnarrows, hmem, hspent⟩, hrun⟩ :=
    lookUp_run_eq_ok (ε := ε) (s := ⟨c, memory⟩) hc hroot (spent_run hc hknown hroot _)
  obtain rfl : memory' = memory := hnarrows.memory
  obtain ⟨outcome', t, ⟨rfl, rfl⟩, hagain⟩ :=
    lookUp_run_eq_ok (ε := ε) hc' hmem (idle_run hc' hmem hspent _)
  refine ⟨outcome, c', hrun, hnarrows.size, hnarrows.names, fun depth hle => ?_⟩
  exact hagain depth (hnarrows.size.trans_le hle)

/-- A record with three fields. One has a type that wraps the record with a field of its own type.
One has an inferred type that wraps the name of that record, and a value that is a self reference
whose type wraps the name as well. One has a type that wraps a name nothing has. -/
def tangledNames : List Command := linkedRecord ++ [
  .make (.build (.node (.type (.name (.text "List"))) [])) .dummy,
  .make (.build (.node (.qualifiedType .onlyInferred) [.owned ⟨4⟩])) .dummy,
  .make (.build (.node (.type (.name (.text "List"))) [])) .dummy,
  .make (.build (.node (.qualifiedType .none) [.owned ⟨6⟩])) .dummy,
  .make (.build (.node (.expression (.keyword .self)) [.owned ⟨7⟩])) .dummy,
  .make (.build (.node (.declaration (.field (.text "first"))) [.owned ⟨5⟩, .owned ⟨8⟩])) .dummy,
  .make (.build (.node (.type (.name (.text "Tree"))) [])) .dummy,
  .make (.build (.node (.qualifiedType .none) [.owned ⟨10⟩])) .dummy,
  .make (.build (.node (.declaration (.field (.text "rest"))) [.owned ⟨11⟩])) .dummy,
  .make (.build (.node (.qualifiedType .none) [.owned ⟨0⟩])) .dummy,
  .make (.build (.node (.declaration (.field (.text "link"))) [.owned ⟨13⟩])) .dummy,
  .make (.build (.node (.type .struct) [.owned ⟨14⟩, .owned ⟨9⟩, .owned ⟨12⟩])) .dummy]

/-- One type is known under its name, the record with a field of its own type. -/
def knownList (name : Name) : Option NodeId :=
  if (runAll tangledNames .fresh).names.text? name = some "List" then some ⟨0⟩ else none

theorem founded_knownList : (runAll tangledNames .fresh).graph.Founded knownList := by
  intro name type hname
  have hreach : Reachable (runAll tangledNames .fresh) := leads_runAll _ (.refl _)
  have hmem : ⟨0⟩ ∈ (runAll tangledNames .fresh).graph := by decide +kernel
  obtain ⟨answer, hask, hiff⟩ := Graph.isResolved_eq_ok (Graph.closed_reachable hreach) hmem
  have htrue : (runAll tangledNames .fresh).graph.isResolved ⟨0⟩ = .ok true := by decide +kernel
  obtain ⟨-, rfl⟩ := Option.ite_some_none_eq_some.mp hname
  exact ⟨hiff.mp (Except.ok.inj (hask.symm.trans htrue)), .struct, by decide +kernel⟩

/-- The name below the inferred type is looked up. The name below the self reference is left where
it is, by the next run as well, and so is the one that nothing has. -/
theorem names_looked_up_once_tangledNames :
    Reachable (runAll tangledNames .fresh) ∧ (runAll tangledNames .fresh).graph.Founded knownList
      ∧ ∃ c', ([⟨5⟩, ⟨7⟩, ⟨11⟩] : List NodeId).map c'.graph.edges =
          [[.ref ⟨0⟩], [.owned ⟨6⟩], [.owned ⟨10⟩]]
        ∧ (∀ depth, 16 ≤ depth → (Pass.lookUp knownList : Pass Unit Unit).run depth ⟨15⟩
          ⟨runAll tangledNames .fresh, ()⟩ = .ok ⟨⟨15⟩, 1⟩ ⟨c', ()⟩)
        ∧ ∀ depth, 16 ≤ depth → (Pass.lookUp knownList : Pass Unit Unit).run depth ⟨15⟩ ⟨c', ()⟩ =
          .ok ⟨⟨15⟩, 0⟩ ⟨c', ()⟩ := by
  have hreach : Reachable (runAll tangledNames .fresh) := leads_runAll _ (.refl _)
  obtain ⟨outcome, c', hrun, -, -, hagain⟩ := names_looked_up_once (ε := Unit) hreach
    founded_knownList ⟨15⟩ (by decide +kernel) ()
  have hsize : (runAll tangledNames .fresh).graph.size = 16 := by decide +kernel
  rw [hsize] at hrun hagain
  have hresult : (match (Pass.lookUp knownList : Pass Unit Unit).run 16 ⟨15⟩
      ⟨runAll tangledNames .fresh, ()⟩ with
    | .ok outcome t => some (outcome, ([⟨5⟩, ⟨7⟩, ⟨11⟩] : List NodeId).map t.context.graph.edges)
    | .error _ _ => none) = some (⟨⟨15⟩, 1⟩, [[.ref ⟨0⟩], [.owned ⟨6⟩], [.owned ⟨10⟩]]) := by
    decide +kernel
  rw [hrun 16 (Nat.le_refl _), Option.some.injEq, Prod.mk.injEq] at hresult
  obtain ⟨rfl, hedges⟩ := hresult
  exact ⟨hreach, founded_knownList, c', hedges, hrun, hagain⟩

end SyntaxGraph
