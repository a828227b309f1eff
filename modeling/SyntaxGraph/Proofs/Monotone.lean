import Mathlib.Data.List.Infix
import SyntaxGraph.Proofs.Resolved

/-!
# Resolution is monotonic

A node that is resolved stays resolved, whatever is done to the graph, as long
as no unresolved node is pushed under a node that is still under construction.

A replacement is checked for this at one slot and against the graph as it was.
That is enough for every node from which the slot can be reached, on cycles too:
the resolved nodes of the old graph, taken together, have no placeholder among
them and no edge that leads out of them, before the change and after it.

What holds of single calls holds of a pass whose offers consist of such calls.
Offers are judged by what they do in the run at hand, so the run is recorded.

The check refuses no more than it has to. It asks whether the new child is
resolved before the write, and that comes to the same as asking afterwards: a way
from the new child that leads through the slot goes on below a resolved node with
either edge.
-/

namespace SyntaxGraph

open Relation

namespace Graph

variable {g g' : Graph}

/-! ## Resolved nodes taken together -/

theorem Resolved.isPlaceholder_eq_false {id : NodeId} (h : g.Resolved id)
    (hself : g.isSelfReference id = false) : g.isPlaceholder id = false := by
  cases hp : g.isPlaceholder id with
  | false => rfl
  | true => exact absurd ⟨id, .here hself, hp⟩ h

theorem Resolved.link {a b : NodeId} (h : g.Resolved a) (hself : g.isSelfReference a = false)
    (hlink : g.Link a b) : g.Resolved b := by
  intro hreach
  obtain ⟨p, hpath, hp⟩ := hreach
  exact h ⟨p, .step hself rfl hlink hpath, hp⟩

/-- **Nodes are resolved** if there is no placeholder among them and no edge leads out of them. Self
references are left aside. -/
theorem resolved_of_invariant {S : NodeId → Prop}
    (hS : ∀ a, S a → g.isSelfReference a = false →
      g.isPlaceholder a = false ∧ ∀ b, g.Link a b → S b) {a : NodeId} (ha : S a) :
    g.Resolved a := by
  intro hreach
  obtain ⟨p, hpath, hp⟩ := hreach
  induction hpath with
  | here hself =>
    rw [(hS _ ha hself).1] at hp
    exact Bool.noConfusion hp
  | step hself _ hlink _ ih => exact ih ((hS _ ha hself).2 _ hlink) hp

theorem mem_of_isResolved {id : NodeId} {answer : Bool} (h : g.isResolved id = .ok answer) :
    id ∈ g := by
  by_contra hid
  rw [not_mem_iff_node?] at hid
  rw [isResolved, isResolvedFrom, settle] at h
  split at h
  · exact absurd h (by simp [Except.map])
  · rename_i node hn
    exact absurd (hid.symm.trans hn) (by simp)

/-! ## Changes that keep nodes resolved -/

/-- Where edges lead to nodes they go on to do so, and resolved nodes stay resolved. -/
def Keeps (g g' : Graph) : Prop :=
  Closed g → Closed g' ∧ ∀ id ∈ g, id ∈ g' ∧ (g.Resolved id → g'.Resolved id)

instance : IsPreorder Graph Keeps where
  refl _ hclosed := ⟨hclosed, fun _ hid => ⟨hid, fun h => h⟩⟩
  trans g₁ g₂ g₃ h h' hclosed := by
    obtain ⟨hclosed, hfirst⟩ := h hclosed
    obtain ⟨hclosed, hsecond⟩ := h' hclosed
    refine ⟨hclosed, fun id hid => ?_⟩
    obtain ⟨hid, hfirst⟩ := hfirst id hid
    obtain ⟨hid, hsecond⟩ := hsecond id hid
    exact ⟨hid, fun hr => hsecond (hfirst hr)⟩

/-- A change keeps nodes resolved if the edges that it adds to resolved nodes lead to resolved
nodes. -/
theorem keeps_of_link (hs : Change g g') (hmem : ∀ id ∈ g, id ∈ g')
    (hkind : ∀ id ∈ g, g'.kind? id = g.kind? id)
    (hlink : Closed g → ∀ a ∈ g, g.Resolved a → g.isSelfReference a = false →
      ∀ b, g'.Link a b → g.Link a b ∨ b ∈ g ∧ g.Resolved b) : Keeps g g' := by
  intro hclosed
  refine ⟨closed_change hclosed hs, fun id hid => ⟨hmem id hid, fun hresolved => ?_⟩⟩
  refine resolved_of_invariant (S := fun a => a ∈ g ∧ g.Resolved a) ?_ ⟨hid, hresolved⟩
  -- the nodes that were resolved, taken together
  intro a hresolved hself
  obtain ⟨ha, hr⟩ := hresolved
  rw [isSelfReference, hkind a ha, ← isSelfReference] at hself
  rw [isPlaceholder, hkind a ha, ← isPlaceholder]
  refine ⟨hr.isPlaceholder_eq_false hself, fun b hb => ?_⟩
  rcases hlink hclosed a ha hr hself b hb with ⟨e, he, rfl⟩ | hb
  · exact ⟨hclosed a e he, hr.link hself ⟨e, he, rfl⟩⟩
  · exact hb

theorem keeps_begin (kind : Kind Name) (span : Span) (hroom : g.HasRoom 1) :
    Keeps g (g.begin kind span) := by
  refine keeps_of_link (.begin kind span hroom) (fun _ => mem_begin) (fun _ => kind?_begin) ?_
  intro _ a _ _ _ b hb
  rw [Link, edges_begin] at hb
  exact .inl hb

theorem keeps_finish {id : NodeId} (h : g.checkFreeze id = .ok ()) : Keeps g (g.finish id) := by
  refine keeps_of_link (.freeze h) (fun _ => mem_finish.mpr) (fun _ _ => kind?_finish _ _) ?_
  intro _ a _ _ _ b hb
  rw [Link, edges_finish] at hb
  exact .inl hb

theorem keeps_insert {kind : Kind Name} {children : List Edge} (span : Span) (hroom : g.HasRoom 1)
    (h : g.checkCreate kind children = .ok ()) : Keeps g (g.insert kind children span) := by
  refine keeps_of_link (.create span hroom h) (fun _ hid => mem_insert.mpr (.inl hid))
    (fun _ => kind?_insert) ?_
  intro _ a ha _ _ b hb
  rw [Link, edges_insert, if_neg (ne_nextId ha)] at hb
  exact .inl hb

theorem keeps_addChild {parent : NodeId} {e : Edge} (h : g.checkPush parent e = .ok ())
    (hresolved : g.Resolved e.target) : Keeps g (g.addChild parent e) := by
  obtain ⟨node, hn, _, hfits, _⟩ := checkPush_eq_ok.mp h
  refine keeps_of_link (.push h) (fun _ => mem_addChild.mpr) (fun _ _ => kind?_addChild _ _ _) ?_
  intro _ a _ _ _ b hb
  obtain ⟨e', he', rfl⟩ := hb
  rw [edges_addChild (mem_iff_node?.mpr ⟨node, hn⟩)] at he'
  split at he'
  · rename_i ha
    rcases List.mem_append.mp he' with he' | he'
    · exact .inl ⟨e', ha ▸ he', rfl⟩
    · rw [List.mem_singleton.mp he']
      exact .inr ⟨hfits.mem, hresolved⟩
  · exact .inl ⟨e', he', rfl⟩

/-- An edge after a replacement was there before, or it is the new one. -/
theorem link_of_link_setChild {parent : NodeId} {index : Nat} {old new : Edge} {a b : NodeId}
    (h : (g.setChild parent index old new).Link a b) :
    g.Link a b ∨ a = parent ∧ b = new.target := by
  obtain ⟨e, he, rfl⟩ := h
  rw [edges_setChild] at he
  split at he
  · rename_i ha
    rcases List.mem_or_eq_of_mem_set he with he | rfl
    · exact .inl ⟨e, ha ▸ he, rfl⟩
    · exact .inr ⟨ha, rfl⟩
  · exact .inl ⟨e, he, rfl⟩

theorem keeps_setChild {parent : NodeId} {index : Nat} {old new : Edge}
    (h : g.checkReplace parent index new = .ok old) (hne : old ≠ new) :
    Keeps g (g.setChild parent index old new) := by
  obtain ⟨node, hn, hold, hnew⟩ := checkReplace_eq_ok.mp h
  obtain ⟨hfits, _, resolved, hask, hregress⟩ := hnew hne
  refine keeps_of_link (.replace h hne) (fun _ => mem_setChild.mpr)
    (fun _ _ => kind?_setChild _ _ _ _ _) ?_
  intro hclosed a _ hr hself b hb
  rcases link_of_link_setChild hb with hb | ⟨rfl, rfl⟩
  · exact .inl hb
  · -- what the slot led to was resolved, so the check asked the same of the new child
    have hslot : old ∈ g.edges a := edges_of_node? hn ▸ List.mem_of_getElem? hold
    have htarget : g.Resolved old.target := hr.link hself ⟨old, hslot, rfl⟩
    rw [← isResolved_eq_true_iff hclosed (hclosed a old hslot), hask, Except.ok.injEq] at htarget
    exact .inr ⟨hfits.mem, (isResolved_eq_true_iff hclosed hfits.mem).mp (hregress htarget)⟩

/-! ## New nodes -/

theorem resolved_of_link {id : NodeId} (hp : g.isPlaceholder id = false)
    (hlink : ∀ b, g.Link id b → g.Resolved b) : g.Resolved id := by
  intro hreach
  obtain ⟨p, hpath, hplaceholder⟩ := hreach
  cases hpath with
  | here =>
    rw [hp] at hplaceholder
    exact Bool.noConfusion hplaceholder
  | step _ _ hfirst hrest => exact hlink _ hfirst ⟨p, hrest, hplaceholder⟩

theorem resolved_begin (g : Graph) (kind : Kind Name) (h : kind.isPlaceholder = false)
    (span : Span) : (g.begin kind span).Resolved g.nextId := by
  refine resolved_of_link ?_ ?_
  · rw [isPlaceholder, kind?, node?_begin, if_pos rfl]
    exact h
  · -- a node that was begun has no children yet
    intro b hb
    obtain ⟨e, he, _⟩ := hb
    rw [edges_begin, edges, node?_nextId] at he
    exact absurd he (by simp)

theorem resolved_insert (hclosed : Closed g) {kind : Kind Name} {children : List Edge} (span : Span)
    (hroom : g.HasRoom 1) (hcheck : g.checkCreate kind children = .ok ())
    (h : kind.isPlaceholder = false) (hchildren : ∀ e ∈ children, g.Resolved e.target) :
    (g.insert kind children span).Resolved g.nextId := by
  obtain ⟨_, hkeeps⟩ := keeps_insert span hroom hcheck hclosed
  refine resolved_of_link ?_ ?_
  · rw [isPlaceholder, kind?, node?_insert, if_pos rfl]
    exact h
  · intro b hb
    obtain ⟨e, he, rfl⟩ := hb
    rw [edges_insert, if_pos rfl] at he
    exact (hkeeps _ (target_mem_of_checkCreate hcheck e he)).2 (hchildren e he)

end Graph

/-! ## Commands -/

/-- What is resolved in the one context is resolved in the other. -/
def Context.Keeps (a b : Context) : Prop := a.graph.Keeps b.graph

instance : IsPreorder Context Context.Keeps where
  refl c := refl c.graph
  trans _ _ _ h h' := trans_of Graph.Keeps h h'

theorem allows_keeps : Allows Context.Keeps where
  intern _ := refl (r := Graph.Keeps) _
  begin kind span hroom := Graph.keeps_begin kind span hroom
  freeze h := Graph.keeps_finish h
  create span hroom h := Graph.keeps_insert span hroom h

theorem keeps_integerType (sign : Signedness) (width : UInt16) (span : Span) :
    Moves Context.Keeps (Build.integerType sign width span) := by
  intro c
  by_cases hclosed : c.graph.Closed
  swap
  · exact fun h => absurd h hclosed
  unfold Build.integerType
  dsimp only
  split
  · exact moves_throw (BuildError.node (.invalidIntegerWidth width)) c
  refine related_bind (Build.moves_begin allows_keeps _ _ c) fun type c₁ h₁ => ?_
  obtain ⟨hroom, rfl, rfl⟩ := Build.begin_eq_ok.mp h₁
  -- the default value is made from a constant of the type, and the type has no children yet
  have htype := c.graph.resolved_begin (.type (.integer sign width)) rfl span
  have hclosed := (Graph.keeps_begin (.type (.integer sign width)) span hroom hclosed).1
  refine related_bind (Build.moves_create allows_keeps _ _ _ _) fun constant c₂ h₂ => ?_
  obtain ⟨hcheck, hroom, rfl, rfl⟩ := Build.create_eq_ok.mp h₂
  have hconstant := Graph.resolved_insert hclosed span hroom hcheck rfl
    (List.forall_mem_singleton.mpr htype)
  have hclosed := (Graph.keeps_insert span hroom hcheck hclosed).1
  refine related_bind (Build.moves_create allows_keeps _ _ _ _) fun zero c₃ h₃ => ?_
  obtain ⟨hcheck, hroom, rfl, rfl⟩ := Build.create_eq_ok.mp h₃
  have hzero := Graph.resolved_insert hclosed span hroom hcheck rfl
    (List.forall_mem_singleton.mpr hconstant)
  refine related_bind (Build.related_pushChild fun hpush => Graph.keeps_addChild hpush hzero) ?_
  intro _ c₄ _
  exact moves_bind (Build.moves_freeze allows_keeps _) (fun _ => moves_pure _) c₄

/-- The command pushes no unresolved node. -/
def Command.Steady (g : Graph) : Command → Prop
  | .push _ e => g.isResolved e.target = .ok true
  | _ => True

/-- **A command keeps nodes resolved**, whether it succeeds or fails. -/
theorem Command.keeps_run {cmd : Command} {c : Context} (h : cmd.Steady c.graph) :
    c.Keeps (after cmd.run c) := by
  refine Command.related_run allows_keeps keeps_integerType ?_
    fun _ _ _ _ _ hcheck hne => Graph.keeps_setChild hcheck hne
  rintro parent e rfl hcheck hclosed
  have hresolved : c.graph.Resolved e.target :=
    (Graph.isResolved_eq_true_iff hclosed (Graph.mem_of_isResolved h)).mp h
  exact Graph.keeps_addChild hcheck hresolved hclosed

/-- Commands that push no unresolved node lead from the one context to the other. -/
def SteadyCalls : Context → Context → Prop :=
  ReflTransGen fun a b => ∃ cmd : Command, cmd.Steady a.graph ∧ b = after cmd.run a

theorem SteadyCalls.keeps {a b : Context} (h : SteadyCalls a b) : a.Keeps b := by
  induction h with
  | refl => exact refl a
  | tail _ hstep ih =>
    obtain ⟨cmd, hsteady, rfl⟩ := hstep
    exact trans_of Context.Keeps ih (cmd.keeps_run hsteady)

/-! ## Passes -/

section Passes

variable {σ ε : Type}

/-- What was recorded from the one state to the other keeps nodes resolved if it is all done by
calls that push no unresolved node. -/
def Recorded (s t : PassState (σ × Record)) : Prop :=
  ∃ steps, t.memory.2 = s.memory.2 ++ steps
    ∧ ((∀ step ∈ steps, SteadyCalls step.1 step.2) → s.context.Keeps t.context)

instance : IsPreorder (PassState (σ × Record)) Recorded where
  refl s := ⟨[], (List.append_nil _).symm, fun _ => refl s.context⟩
  trans s t u := by
    intro hst htu
    obtain ⟨first, ht, hfirst⟩ := hst
    obtain ⟨second, hu, hsecond⟩ := htu
    refine ⟨first ++ second, by rw [hu, ht, List.append_assoc], fun h => ?_⟩
    rw [List.forall_mem_append] at h
    exact trans_of Context.Keeps (hfirst h.1) (hsecond h.2)

theorem Pass.recorded_moves (offer : Pass σ ε) (id : NodeId) :
    Moves Recorded (offer.recorded id) := by
  intro s
  refine ⟨[(s.context, (after (offer.recorded id) s).context)], ?_, fun h => ?_⟩
  · unfold after recorded
    cases offer id s.forget <;> rfl
  · exact (h _ (List.mem_singleton.mpr rfl)).keeps

theorem recorded_replaceChild (parent : NodeId) (index : Nat) (e : Edge) :
    Moves Recorded (PassM.replaceChild (σ := σ × Record) (ε := ε) parent index e) := by
  intro s
  refine ⟨[], ?_, fun _ => ?_⟩
  · unfold after PassM.replaceChild
    cases s.context.graph.checkReplace parent index e with
    | error cause => exact (List.append_nil _).symm
    | ok old => by_cases ho : old = e <;> simp [ho]
  · -- a replacement is no offer: its own check is all that is asked of it
    rw [after_replaceChild]
    exact Command.keeps_run trivial

/-- **A pass keeps nodes resolved**, however it ends, if its offers do. -/
theorem Pass.keeps_run (offer : Pass σ ε) (depth : Nat) (root : NodeId) (s : PassState σ)
    (h : ∀ step ∈ offer.record depth root s, SteadyCalls step.1 step.2) :
    s.context.Keeps (after (offer.run depth root) s).context := by
  have hextends := (Pass.lifts_run lifts_extends extends_replaceChild offer offer.recorded
    offer.extends_recorded depth root).after ⟨s.context, s.memory, []⟩
  have hcontext : (after (offer.recorded.run depth root) ⟨s.context, s.memory, []⟩).context =
      (after (offer.run depth root) s).context := congrArg PassState.context hextends
  obtain ⟨steps, hsteps, hkeeps⟩ := Pass.moves_run (R := Recorded) offer.recorded_moves
    recorded_replaceChild depth root ⟨s.context, s.memory, []⟩
  rw [List.nil_append] at hsteps
  rw [← hcontext]
  exact hkeeps (hsteps ▸ h)

end Passes

/-! ## Resolution -/

theorem Context.Keeps.isResolved {a b : Context} (h : a.Keeps b) (hclosed : a.graph.Closed)
    {id : NodeId} (hid : a.graph.isResolved id = .ok true) : b.graph.isResolved id = .ok true := by
  have hmem : id ∈ a.graph := Graph.mem_of_isResolved hid
  rw [Graph.isResolved_eq_true_iff hclosed hmem] at hid
  obtain ⟨hclosed, hkeeps⟩ := h hclosed
  obtain ⟨hmem, hresolved⟩ := hkeeps id hmem
  exact (Graph.isResolved_eq_true_iff hclosed hmem).mpr (hresolved hid)

/-- **Resolution is monotonic.** In a context that calls can lead to, a resolved node stays resolved
after a command that pushes no unresolved node, and after a pass of whose offers each does to the
context what such commands do. Neither has to succeed. -/
theorem resolution_monotonic {c : Context} (hc : Reachable c) :
    (∀ (cmd : Command) (id : NodeId), cmd.Steady c.graph →
      c.graph.isResolved id = .ok true → (after cmd.run c).graph.isResolved id = .ok true)
    ∧ ∀ (σ ε : Type) (offer : Pass σ ε) (depth : Nat) (root id : NodeId) (memory : σ),
      (∀ step ∈ offer.record depth root ⟨c, memory⟩, SteadyCalls step.1 step.2) →
      c.graph.isResolved id = .ok true →
        (after (offer.run depth root) ⟨c, memory⟩).context.graph.isResolved id = .ok true := by
  have hclosed := Graph.closed_reachable hc
  constructor
  · intro cmd id hsteady hid
    exact (cmd.keeps_run hsteady).isResolved hclosed hid
  · intro σ ε offer depth root id memory hoffers hid
    exact (offer.keeps_run depth root ⟨c, memory⟩ hoffers).isResolved hclosed hid

/-- Puts a new wrapper in the place of the one in the field of the sample record. -/
def rewrap : Pass Unit Unit := fun id => do
  if id = ⟨3⟩ then
    let new ← PassM.within (fun _ => .gaveUp ())
      (Build.create (.qualifiedType .none) [.ref ⟨0⟩] .dummy)
    return .replace (.owned new)
  else return .descend

/-- The sample record stays resolved when its field gets the first wrapper back, and when it gets
one that a pass makes. -/
theorem resolution_monotonic_linkedRecord :
    Reachable (runAll linkedRecord .fresh)
      ∧ (after (Command.replace ⟨2⟩ 0 (.owned ⟨1⟩)).run (runAll linkedRecord .fresh)).graph.isResolved
        ⟨0⟩ = .ok true
      ∧ (after (rewrap.run 5 ⟨0⟩) ⟨runAll linkedRecord .fresh, ()⟩).context.graph.isResolved ⟨0⟩
        = .ok true
      ∧ (after (rewrap.run 5 ⟨0⟩) ⟨runAll linkedRecord .fresh, ()⟩).context.graph.edges ⟨2⟩
        = [.owned ⟨4⟩] := by
  have hreach : Reachable (runAll linkedRecord .fresh) := leads_runAll _ (.refl _)
  have hresolved : (runAll linkedRecord .fresh).graph.isResolved ⟨0⟩ = .ok true := by
    decide +kernel
  obtain ⟨hcommand, hpass⟩ := resolution_monotonic hreach
  refine ⟨hreach, hcommand _ _ trivial hresolved,
    hpass _ _ rewrap 5 ⟨0⟩ ⟨0⟩ () ?_ hresolved, by decide +kernel⟩
  have hoffers : ∀ step ∈ rewrap.record 5 ⟨0⟩ ⟨runAll linkedRecord .fresh, ()⟩,
      step.2 = step.1 ∨ step.2 = after (Command.make
        (.build (.node (.qualifiedType .none) [.ref ⟨0⟩])) .dummy).run step.1 := by
    decide +kernel
  intro step hstep
  rcases hoffers step hstep with h | h
  · exact h ▸ .refl
  · exact .single ⟨.make _ _, trivial, h⟩

/-! ## The check is made before the write -/

namespace Graph

variable {g : Graph} {parent : NodeId} {index : Nat} {old new : Edge}

/-- An edge before the write is there afterwards, or it is the old one. -/
theorem link_setChild_of_link (hslot : g.edge? parent index = some old) (new : Edge)
    {a b : NodeId} (h : g.Link a b) :
    (g.setChild parent index old new).Link a b ∨ b = old.target := by
  obtain ⟨e, he, rfl⟩ := h
  obtain ⟨i, hi⟩ := mem_edges_iff.mp he
  by_cases hwritten : a = parent ∧ i = index
  · obtain ⟨rfl, rfl⟩ := hwritten
    exact .inr (congrArg Edge.target (Option.some.inj (hi.symm.trans hslot)))
  · refine .inl ⟨e, mem_edges_iff.mpr ⟨i, ?_⟩, rfl⟩
    rw [edge?_setChild hslot, if_neg hwritten, hi]

theorem closed_setChild (hclosed : Closed g) (hnew : new.target ∈ g) :
    Closed (g.setChild parent index old new) := by
  intro a e he
  rw [mem_setChild]
  rcases link_of_link_setChild ⟨e, he, rfl⟩ with ⟨e', he', htarget⟩ | ⟨-, htarget⟩
  · exact htarget ▸ hclosed a e' he'
  · exact htarget ▸ hnew

/-- **The write does not decide about the new child.** If the old child is resolved, the new one is
resolved after the write exactly if it was before, also where it reaches the written slot. -/
theorem resolved_setChild_iff (hslot : g.edge? parent index = some old)
    (hold : g.Resolved old.target) :
    (g.setChild parent index old new).Resolved new.target ↔ g.Resolved new.target := by
  have hkind := kind?_setChild (g := g) parent index old new
  constructor
  · intro hnew
    -- what a path loses by the write, it goes on from the old child
    refine resolved_of_invariant
      (S := fun a => (g.setChild parent index old new).Resolved a ∨ g.Resolved a) ?_ (.inl hnew)
    rintro a (ha | ha) hself
    · rw [isSelfReference, ← hkind a, ← isSelfReference] at hself
      rw [isPlaceholder, ← hkind a, ← isPlaceholder]
      refine ⟨ha.isPlaceholder_eq_false hself, fun b hb => ?_⟩
      rcases link_setChild_of_link hslot new hb with hb | rfl
      · exact .inl (ha.link hself hb)
      · exact .inr hold
    · exact ⟨ha.isPlaceholder_eq_false hself, fun b hb => .inr (ha.link hself hb)⟩
  · intro hnew
    -- what a path gains by the write, it goes on from the new child
    refine resolved_of_invariant (S := g.Resolved) ?_ hnew
    intro a ha hself
    rw [isSelfReference, hkind a, ← isSelfReference] at hself
    rw [isPlaceholder, hkind a, ← isPlaceholder]
    refine ⟨ha.isPlaceholder_eq_false hself, fun b hb => ?_⟩
    rcases link_of_link_setChild hb with hb | ⟨-, rfl⟩
    · exact ha.link hself hb
    · exact hnew

/-- Once a replacement has passed the other checks, its verdict is that of the two questions. -/
theorem checkReplace_of_questions {node : Node} (hn : g.node? parent = some node)
    (hold : node.children[index]? = some old) (hne : old ≠ new)
    (hslot : g.checkSlot node.kind index new.target = .ok ())
    (hedge : g.checkEdge parent new = .ok ()) {resolved resolved' : Bool}
    (hask : g.isResolved old.target = .ok resolved)
    (hask' : g.isResolved new.target = .ok resolved') :
    g.checkReplace parent index new =
      if resolved = true ∧ resolved' = false then .error (.resolutionRegressed parent index)
      else .ok old := by
  have hread : reading (g.isResolved old.target) = .ok resolved := reading_eq_ok.mpr hask
  have hread' : reading (g.isResolved new.target) = .ok resolved' := reading_eq_ok.mpr hask'
  rw [checkReplace, known_eq_ok.mpr hn]
  simp only [bind, Except.bind, hold, if_neg hne, hslot, hedge, hread, hread']
  cases resolved <;> cases resolved' <;> rfl

end Graph

/-- **The check for a regression is exact**, although it is made before the write. A replacement
that passes the checks of ids, slots and owners is refused for a regression exactly if the old child
is resolved and the new one is not *in the graph after the write*; if it is not refused, it
succeeds. -/
theorem regression_check_exact {c : Context} (hc : Reachable c) (parent : NodeId) (index : Nat)
    (old new : Edge) {node : Node} (hn : c.graph.node? parent = some node)
    (hold : node.children[index]? = some old) (hne : old ≠ new)
    (hslot : c.graph.checkSlot node.kind index new.target = .ok ())
    (hedge : c.graph.checkEdge parent new = .ok ()) :
    ∃ resolved resolved', c.graph.isResolved old.target = .ok resolved
      ∧ (c.graph.setChild parent index old new).isResolved new.target = .ok resolved'
      ∧ (Command.replace parent index new).run c =
        if resolved = true ∧ resolved' = false then
          .error (.node (.resolutionRegressed parent index)) c
        else .ok (.replaced old) { c with graph := c.graph.setChild parent index old new } := by
  have hclosed := Graph.closed_reachable hc
  have hget : c.graph.edge? parent index = some old := by rw [Graph.edge?_of_node? hn, hold]
  have holdmem : old.target ∈ c.graph :=
    hclosed parent old (Graph.mem_edges_iff.mpr ⟨index, hget⟩)
  have hnewmem : new.target ∈ c.graph := (Graph.checkSlot_eq_ok.mp hslot).mem
  obtain ⟨resolved, hask, hiff⟩ := Graph.isResolved_eq_ok hclosed holdmem
  obtain ⟨before, hbefore, hiffbefore⟩ := Graph.isResolved_eq_ok hclosed hnewmem
  have hclosed' : (c.graph.setChild parent index old new).Closed :=
    Graph.closed_setChild hclosed hnewmem
  obtain ⟨resolved', hafter, hiffafter⟩ :=
    Graph.isResolved_eq_ok hclosed' (Graph.mem_setChild.mpr hnewmem)
  refine ⟨resolved, resolved', hask, hafter, ?_⟩
  -- the check asks about the new child before the write: the same, if the old one is resolved
  have hverdict : (resolved = true ∧ resolved' = false) ↔ (resolved = true ∧ before = false) := by
    refine and_congr_right fun hr => ?_
    have hsame : resolved' = before := Bool.eq_iff_iff.mpr
      (hiffafter.trans ((Graph.resolved_setChild_iff hget (hiff.mp hr)).trans hiffbefore.symm))
    rw [hsame]
  have hcheck := Graph.checkReplace_of_questions hn hold hne hslot hedge hask hbefore
  by_cases hregress : resolved = true ∧ before = false
  · rw [if_pos hregress] at hcheck
    rw [if_pos (hverdict.mpr hregress), Command.run_replace_of_error hcheck]
  · rw [if_neg hregress] at hcheck
    rw [if_neg fun h => hregress (hverdict.mp h), Command.run_replace_of_ok hcheck, if_neg hne]

/-- The sample record, and a wrapper of a type that is only named. -/
def recordAndStranger : List Command := linkedRecord ++ [
  .make (.build (.node (.type (.name (.text "T"))) [])) .dummy,
  .make (.build (.node (.qualifiedType .none) [.owned ⟨4⟩])) .dummy]

/-- From the field of the sample record one comes back to the field, and the same holds of the first
wrapper, which is put in place again. The wrapper of the named type is refused. -/
theorem regression_check_exact_recordAndStranger :
    Reachable (runAll recordAndStranger .fresh)
      ∧ (∃ c, (Command.replace ⟨2⟩ 0 (.owned ⟨1⟩)).run (runAll recordAndStranger .fresh) =
        .ok (.replaced (.owned ⟨3⟩)) c ∧ c.graph.isResolved ⟨1⟩ = .ok true)
      ∧ (Command.replace ⟨2⟩ 0 (.owned ⟨5⟩)).run (runAll recordAndStranger .fresh) =
        .error (.node (.resolutionRegressed ⟨2⟩ 0)) (runAll recordAndStranger .fresh) := by
  have hreach : Reachable (runAll recordAndStranger .fresh) := leads_runAll _ (.refl _)
  have hnode : (runAll recordAndStranger .fresh).graph.node? ⟨2⟩ =
      some ⟨.declaration (.field (.ofParts 3 0)), .dummy, [.owned ⟨3⟩], some ⟨0⟩, true⟩ := by
    decide +kernel
  have hresolved : (runAll recordAndStranger .fresh).graph.isResolved ⟨3⟩ = .ok true := by
    decide +kernel
  refine ⟨hreach, ?_, ?_⟩
  · obtain ⟨resolved, resolved', _, hafter, hrun⟩ := regression_check_exact hreach ⟨2⟩ 0
      (.owned ⟨3⟩) (.owned ⟨1⟩) hnode rfl (by decide) (by decide +kernel) (by decide +kernel)
    have htrue : ((runAll recordAndStranger .fresh).graph.setChild ⟨2⟩ 0 (.owned ⟨3⟩)
        (.owned ⟨1⟩)).isResolved ⟨1⟩ = .ok true := by decide +kernel
    obtain rfl : true = resolved' := by simpa [Edge.target] using htrue.symm.trans hafter
    rw [if_neg (by simp)] at hrun
    exact ⟨_, hrun, htrue⟩
  · obtain ⟨resolved, resolved', hbefore, hafter, hrun⟩ := regression_check_exact hreach ⟨2⟩ 0
      (.owned ⟨3⟩) (.owned ⟨5⟩) hnode rfl (by decide) (by decide +kernel) (by decide +kernel)
    have hfalse : ((runAll recordAndStranger .fresh).graph.setChild ⟨2⟩ 0 (.owned ⟨3⟩)
        (.owned ⟨5⟩)).isResolved ⟨5⟩ = .ok false := by decide +kernel
    obtain rfl : true = resolved := by simpa [Edge.target] using hresolved.symm.trans hbefore
    obtain rfl : false = resolved' := by simpa [Edge.target] using hfalse.symm.trans hafter
    rwa [if_pos ⟨rfl, rfl⟩] at hrun

end SyntaxGraph
