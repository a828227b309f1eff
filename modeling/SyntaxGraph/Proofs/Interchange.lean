import Mathlib.Logic.Relation
import SyntaxGraph.Proofs.Bisimulation
import SyntaxGraph.Proofs.Resolved
import SyntaxGraph.Proofs.ValueTypes

/-!
# Equal nodes are interchangeable

A slot may be made to lead to any node that equals the one it leads to: nobody
who asks about equality, resolution or types can tell. Pointing every use of a
type at one of the equal types is sound for that reason.

Bisimilarity is all that the argument needs, but between two graphs and not in
one. Every node of the changed graph matches the nodes that it was bisimilar to
before the change, itself among them, and what can be asked about a node is the
same for a node that matches it. The changed slot may be on cycles with all the
nodes in question, and that makes no difference to a relation that is looked at
one step at a time.

Equal nodes of one graph are the case in which nothing has been changed: a graph
matches itself by bisimilarity.
-/

namespace SyntaxGraph.Graph

open Relation

variable {g g' : Graph} {R : NodeId → NodeId → Prop}

/-! ## Two graphs that match -/

/-- A node of the first graph and one of the second that the relation holds between have the same
kind, and it holds between their children one by one. -/
def Matches (g g' : Graph) (R : NodeId → NodeId → Prop) : Prop :=
  ∀ a b, R a b → ∃ x y, g.node? a = some x ∧ g'.node? b = some y ∧ x.kind = y.kind
    ∧ List.Forall₂ R x.targets y.targets

theorem matches_self : g.Matches g R ↔ g.IsBisimulation R := Iff.rfl

theorem Matches.swap (h : g.Matches g' R) : g'.Matches g (Function.swap R) := by
  intro b a hab
  obtain ⟨x, y, hx, hy, hkind, htargets⟩ := h a b hab
  exact ⟨y, x, hy, hx, hkind.symm, htargets.flip⟩

theorem Matches.comp {g₁ g₂ g₃ : Graph} {R S : NodeId → NodeId → Prop} (h : g₁.Matches g₂ R)
    (h' : g₂.Matches g₃ S) : g₁.Matches g₃ (Comp R S) := by
  intro a c hac
  obtain ⟨b, hab, hbc⟩ := hac
  obtain ⟨x, y, hx, hy, hxy, hfirst⟩ := h a b hab
  obtain ⟨y', z, hy', hz, hyz, hsecond⟩ := h' b c hbc
  obtain rfl := Option.some.inj (hy.symm.trans hy')
  exact ⟨x, z, hx, hz, hxy.trans hyz, forall₂_comp hfirst hsecond⟩

/-- A node that matches another one, seen from the other one. -/
theorem Matches.node? (h : g.Matches g' R) {a b : NodeId} (hab : R a b) {x : Node}
    (hx : g.node? a = some x) :
    ∃ y, g'.node? b = some y ∧ y.kind = x.kind
      ∧ ∀ index c, x.target? index = some c → ∃ d, y.target? index = some d ∧ R c d := by
  obtain ⟨x', y, hx', hy, hkind, htargets⟩ := h a b hab
  obtain rfl := Option.some.inj (hx.symm.trans hx')
  refine ⟨y, hy, hkind.symm, fun index c hc => ?_⟩
  rw [Node.target?, ← List.getElem?_map] at hc
  obtain ⟨hi, rfl⟩ := List.getElem?_eq_some_iff.mp hc
  have hj : index < y.targets.length := htargets.length_eq ▸ hi
  refine ⟨y.targets[index], ?_, htargets.get hi hj⟩
  rw [Node.target?, ← List.getElem?_map]
  exact List.getElem?_eq_getElem hj

theorem Matches.kind? (h : g.Matches g' R) {a b : NodeId} (hab : R a b) :
    g'.kind? b = g.kind? a := by
  obtain ⟨x, y, hx, hy, hkind, _⟩ := h a b hab
  rw [kind?_of_node? hx, kind?_of_node? hy, hkind]

theorem Matches.link (h : g.Matches g' R) {a b c : NodeId} (hab : R a b) (hlink : g.Link a c) :
    ∃ d, g'.Link b d ∧ R c d := by
  obtain ⟨e, he, rfl⟩ := hlink
  obtain ⟨x, hx⟩ := mem_iff_node?.mp (mem_of_edge he)
  obtain ⟨index, hi⟩ := mem_edges_iff.mp he
  rw [edge?_of_node? hx] at hi
  obtain ⟨y, hy, _, htarget⟩ := h.node? hab hx
  obtain ⟨d, hd, hcd⟩ := htarget index e.target (by rw [Node.target?, hi]; rfl)
  obtain ⟨e', he', rfl⟩ := Option.map_eq_some_iff.mp hd
  exact ⟨e'.target, ⟨e', edges_of_node? hy ▸ List.mem_of_getElem? he', rfl⟩, hcd⟩

/-! ## What matching nodes have in common -/

theorem Matches.reaches (h : g.Matches g' R) {a p : NodeId} (hpath : g.Reaches a p) :
    ∀ {b}, R a b → ∃ q, g'.Reaches b q ∧ R p q := by
  have hself : ∀ {a b}, R a b → g'.isSelfReference b = g.isSelfReference a := by
    intro a b hab
    rw [isSelfReference, isSelfReference, h.kind? hab]
  induction hpath with
  | here ha => exact fun {b} hab => ⟨b, .here ((hself hab).trans ha), hab⟩
  | step ha _ hlink _ ih =>
    intro b hab
    obtain ⟨d, hd, hcd⟩ := h.link hab hlink
    obtain ⟨q, hq, hpq⟩ := ih hcd
    exact ⟨q, .step ((hself hab).trans ha) rfl hd hq, hpq⟩

theorem Matches.resolved (h : g.Matches g' R) {a b : NodeId} (hab : R a b) (hb : g'.Resolved b) :
    g.Resolved a := by
  rintro ⟨p, hpath, hp⟩
  obtain ⟨q, hq, hpq⟩ := h.reaches hpath hab
  refine hb ⟨q, hq, ?_⟩
  rw [isPlaceholder, h.kind? hpq]
  exact hp

theorem Matches.typedAfter (h : g.Matches g' R) {n : Nat} {a type : NodeId}
    (htyped : g.TypedAfter n a type) :
    ∀ {b}, R a b → ∃ type', g'.TypedAfter n b type' ∧ R type type' := by
  induction htyped with
  | holds hn hvalue hown htype =>
    intro b hab
    obtain ⟨y, hy, hkind, htarget⟩ := h.node? hab hn
    obtain ⟨type', htype', hmatch⟩ := htarget _ _ htype
    rw [← hkind] at hvalue hown
    exact ⟨type', .holds hy hvalue hown htype', hmatch⟩
  | forwards hn hforwards hnext _ ih =>
    intro b hab
    obtain ⟨y, hy, hkind, htarget⟩ := h.node? hab hn
    obtain ⟨next', hnext', hmatch⟩ := htarget _ _ hnext
    obtain ⟨type', htype', hmatch⟩ := ih hmatch
    rw [← hkind] at hforwards
    exact ⟨type', .forwards hy hforwards hnext' htype', hmatch⟩

theorem Matches.hasShape (h : g.Matches g' R) {a : NodeId} {shape : TypeShape Name}
    (hshape : g.HasShape a shape) : ∀ {b}, R a b → g'.HasShape b shape := by
  induction hshape with
  | type hkind => exact fun hab => .type ((h.kind? hab).trans hkind)
  | wrapped hn hkind htarget hwrapped =>
    intro b hab
    obtain ⟨y, hy, hsame, htargets⟩ := h.node? hab hn
    obtain ⟨d, hd, hmatch⟩ := htargets _ _ htarget
    exact .wrapped hy (hsame.trans hkind) hd ((h.kind? hmatch).trans hwrapped)
  | value htyped _ ih =>
    intro b hab
    obtain ⟨n, htyped⟩ := htyped
    obtain ⟨type', htype', hmatch⟩ := h.typedAfter htyped hab
    exact .value ⟨n, htype'⟩ (ih hmatch)

/-- Nodes that match bisimilar ones are bisimilar. -/
theorem Matches.bisimilar (h : g.Matches g' R) {a a' b b' : NodeId} (ha : R a a') (hb : R b b')
    (hab : g.Bisimilar a b) : g'.Bisimilar a' b' := by
  have hround : g'.Matches g' (Comp (Function.swap R) (Comp g.Bisimilar R)) :=
    h.swap.comp ((matches_self.mpr isBisimulation_bisimilar).comp h)
  exact ⟨_, matches_self.mp hround, a, ha, b, hab, hb⟩

/-! ## Graphs that cannot be told apart -/

/-- The second graph has the nodes of the first, and whatever can be asked about their equality,
their resolution and their types has one answer in both. -/
structure Indistinct (g g' : Graph) : Prop where
  mem_iff : ∀ a, a ∈ g' ↔ a ∈ g
  isEqual : ∀ a ∈ g, ∀ b ∈ g, ∃ answer, g.isEqual a b = .ok answer ∧ g'.isEqual a b = .ok answer
  isResolved : ∀ a ∈ g, ∃ answer, g.isResolved a = .ok answer ∧ g'.isResolved a = .ok answer
  valueType : ∀ a ∈ g, ∃ shape?, g.valueType a = .ok shape? ∧ g'.valueType a = .ok shape?
  isAllocable : ∀ a ∈ g, ∃ answer, g.isAllocable a = .ok answer ∧ g'.isAllocable a = .ok answer
  isSortable : ∀ a ∈ g, ∃ answer, g.isSortable a = .ok answer ∧ g'.isSortable a = .ok answer

/-- Answers that are right about the same thing are the same. -/
theorem answer_unique {P P' : Prop} {answer answer' : Bool} (h : answer = true ↔ P)
    (h' : answer' = true ↔ P') (hiff : P ↔ P') : answer = answer' :=
  Bool.eq_iff_iff.mpr (h.trans (hiff.trans h'.symm))

section Answers

variable (h : g.Matches g' R) {a b : NodeId} (hab : R a b)

include h hab

theorem Matches.mem : a ∈ g ∧ b ∈ g' := by
  obtain ⟨x, y, hx, hy, _⟩ := h a b hab
  exact ⟨mem_iff_node?.mpr ⟨x, hx⟩, mem_iff_node?.mpr ⟨y, hy⟩⟩

variable (hclosed : Closed g) (hclosed' : Closed g')

include hclosed hclosed'

theorem Matches.isResolved_eq :
    ∃ answer, g.isResolved a = .ok answer ∧ g'.isResolved b = .ok answer := by
  obtain ⟨ha, hb⟩ := h.mem hab
  obtain ⟨answer, hask, hiff⟩ := isResolved_eq_ok hclosed ha
  obtain ⟨answer', hask', hiff'⟩ := isResolved_eq_ok hclosed' hb
  have hsame : answer = answer' :=
    answer_unique hiff hiff' ⟨h.swap.resolved hab, h.resolved hab⟩
  exact ⟨answer, hask, hsame ▸ hask'⟩

/-- Neither node has a type, or both have one, and the types match. -/
theorem Matches.typeOf_rel :
    ∃ type? type?', g.typeOf a = .ok type? ∧ g'.typeOf b = .ok type?'
      ∧ Option.Rel R type? type?' := by
  obtain ⟨ha, hb⟩ := h.mem hab
  obtain ⟨type?, hask, hiff⟩ := typeOf_eq_ok hclosed ha
  obtain ⟨type?', hask', hiff'⟩ := typeOf_eq_ok hclosed' hb
  refine ⟨type?, type?', hask, hask', ?_⟩
  cases type? with
  | some type =>
    -- the chains are equally long, wherever ids come back on the one or on the other
    obtain ⟨n, htyped⟩ := (hiff type).mp rfl
    obtain ⟨type', htyped', hmatch⟩ := h.typedAfter htyped hab
    rw [(hiff' type').mpr ⟨n, htyped'⟩]
    exact .some hmatch
  | none =>
    cases type?' with
    | none => exact .none
    | some type' =>
      obtain ⟨n, htyped'⟩ := (hiff' type').mp rfl
      obtain ⟨type, htyped, _⟩ := h.swap.typedAfter htyped' hab
      exact absurd ((hiff type).mpr ⟨n, htyped⟩) (by simp)

variable (hlaid : LaidOut g) (hlaid' : LaidOut g')

include hlaid hlaid'

theorem Matches.valueType_eq :
    ∃ shape?, g.valueType a = .ok shape? ∧ g'.valueType b = .ok shape? := by
  obtain ⟨ha, hb⟩ := h.mem hab
  obtain ⟨shape?, hask, hiff⟩ := valueType_eq_ok hclosed hlaid ha
  obtain ⟨shape?', hask', hiff'⟩ := valueType_eq_ok hclosed' hlaid' hb
  have hsame : shape? = shape?' := by
    refine Option.ext fun shape => (hiff shape).trans (.trans ⟨fun hs => ?_, fun hs => ?_⟩
      (hiff' shape).symm)
    · exact h.hasShape hs hab
    · exact h.swap.hasShape hs hab
  exact ⟨shape?, hask, hsame ▸ hask'⟩

theorem Matches.isAllocable_eq :
    ∃ answer, g.isAllocable a = .ok answer ∧ g'.isAllocable b = .ok answer := by
  obtain ⟨shape?, hask, hask'⟩ := h.valueType_eq hab hclosed hclosed' hlaid hlaid'
  exact ⟨_, by rw [Graph.isAllocable, hask]; rfl, by rw [Graph.isAllocable, hask']; rfl⟩

theorem Matches.isSortable_eq :
    ∃ answer, g.isSortable a = .ok answer ∧ g'.isSortable b = .ok answer := by
  obtain ⟨shape?, hask, hask'⟩ := h.valueType_eq hab hclosed hclosed' hlaid hlaid'
  exact ⟨_, by rw [Graph.isSortable, hask]; rfl, by rw [Graph.isSortable, hask']; rfl⟩

end Answers

/-- **Graphs cannot be told apart if they match and every node matches itself.** -/
theorem indistinct_of_matches (h : g.Matches g' R) (hrefl : ∀ a ∈ g, R a a)
    (hmem : ∀ a, a ∈ g' ↔ a ∈ g) (hclosed : Closed g) (hlaid : LaidOut g) (hclosed' : Closed g')
    (hlaid' : LaidOut g') : Indistinct g g' where
  mem_iff := hmem
  isEqual a ha b hb := by
    obtain ⟨answer, hask, hiff⟩ := isEqual_eq_ok hclosed ha hb
    obtain ⟨answer', hask', hiff'⟩ :=
      isEqual_eq_ok hclosed' ((hmem a).mpr ha) ((hmem b).mpr hb)
    have hsame : answer = answer' := answer_unique hiff hiff'
      ⟨h.bisimilar (hrefl a ha) (hrefl b hb), h.swap.bisimilar (hrefl a ha) (hrefl b hb)⟩
    exact ⟨answer, hask, hsame ▸ hask'⟩
  isResolved a ha := h.isResolved_eq (hrefl a ha) hclosed hclosed'
  valueType a ha := h.valueType_eq (hrefl a ha) hclosed hclosed' hlaid hlaid'
  isAllocable a ha := h.isAllocable_eq (hrefl a ha) hclosed hclosed' hlaid hlaid'
  isSortable a ha := h.isSortable_eq (hrefl a ha) hclosed hclosed' hlaid hlaid'

/-! ## Replacing a child by an equal one -/

/-- A graph in which a slot leads to a bisimilar node matches the graph as it was. -/
theorem matches_setChild {parent : NodeId} {index : Nat} {old new : Edge}
    (hslot : g.edge? parent index = some old) (heq : g.Bisimilar old.target new.target) :
    g.Matches (g.setChild parent index old new) g.Bisimilar := by
  intro a b hab
  obtain ⟨x, y, hx, hy, hkind, htargets⟩ := isBisimulation_bisimilar a b hab
  have hy' := node?_setChild g parent index old new b
  rw [hy, Option.map_some] at hy'
  refine ⟨x, _, hx, hy', hkind, ?_⟩
  by_cases hb : b = parent
  swap
  · simpa only [Node.targets, hb, if_false] using htargets
  subst hb
  rw [edge?_of_node? hy] at hslot
  rw [List.forall₂_iff_get] at htargets ⊢
  obtain ⟨hlength, hchildren⟩ := htargets
  simp only [Node.targets, if_true, List.length_map, List.length_set, List.get_eq_getElem,
    List.getElem_map, List.getElem_set] at hlength hchildren ⊢
  refine ⟨hlength, fun i hi hj => ?_⟩
  have hchild := hchildren i hi hj
  split
  · -- the child was bisimilar to what the slot led to, and that is bisimilar to the new one
    rename_i h
    subst h
    rw [List.getElem?_eq_getElem hj, Option.some.injEq] at hslot
    rw [hslot] at hchild
    exact bisimilar_trans hchild heq
  · exact hchild

theorem mem_of_isEqual {a b : NodeId} (ha : a ∈ g) (h : g.isEqual a b = .ok true) : b ∈ g := by
  rcases comparable_of_isEqual h with rfl | ⟨_, hb⟩
  · exact ha
  · exact hb

/-- A child may be replaced by an equal node if the node can be adopted. -/
theorem checkReplace_of_bisimilar (hown : OwnInv g) (hlaid : LaidOut g) {parent : NodeId}
    {index : Nat} {old e : Edge} (hslot : g.edge? parent index = some old)
    (hnew : e.target ∈ g) (heq : g.Bisimilar old.target e.target)
    (hfree : ∀ child, e = .owned child → g.Free child ∧ ¬ g.Above child parent) :
    g.checkReplace parent index e = .ok old := by
  have hparent : parent ∈ g := mem_of_edge? hslot
  have hold : old.target ∈ g := hown.closed.target_mem hslot
  have hmatch : g.Matches g g.Bisimilar := matches_self.mpr isBisimulation_bisimilar
  obtain ⟨node, hn⟩ := mem_iff_node?.mp hparent
  refine checkReplace_eq_ok.mpr ⟨node, hn, ?_, fun _ => ⟨?_, ?_, ?_⟩⟩
  · rwa [edge?_of_node? hn] at hslot
  · -- equal nodes are of one kind, so they fit the same slots
    obtain ⟨target, htarget, hcategory⟩ := hlaid.fits parent _ (kind?_of_node? hn) index old hslot
    obtain ⟨target', htarget', hkind, _⟩ := hmatch.node? heq htarget
    exact ⟨target', htarget', by rw [hcategory, Node.category, Node.category, hkind]⟩
  · intro child he
    obtain ⟨hf, hnot⟩ := hfree child he
    obtain ⟨above, hask, hiff⟩ := hown.isAbove_ends child hparent
    cases above with
    | true => exact absurd (hiff.mp rfl) hnot
    | false => exact ⟨hf, hask⟩
  · obtain ⟨resolved, hask, hiff⟩ := isResolved_eq_ok hown.closed hold
    refine ⟨resolved, hask, fun hr => ?_⟩
    rw [isResolved_eq_true_iff hown.closed hnew]
    exact hmatch.resolved (bisimilar_symm heq) (hiff.mp hr)

/-- **Replacing a child by an equal node changes nothing that can be observed.** The replacement is
never refused, unless the node could not be owned, and no question about equality, resolution or
types has another answer after it. -/
theorem replace_by_equal {c : Context} (hc : Reachable c) {parent : NodeId} {index : Nat}
    {old e : Edge} (hslot : c.graph.edge? parent index = some old)
    (heq : c.graph.isEqual old.target e.target = .ok true)
    (hfree : ∀ child, e = .owned child → c.graph.Free child ∧ ¬ c.graph.Above child parent) :
    ∃ c', (Command.replace parent index e).run c = .ok (.replaced old) c' ∧ c'.names = c.names
      ∧ Indistinct c.graph c'.graph := by
  have hown := ownInv_reachable hc
  have hlaid := laidOut_reachable hc
  have hclosed := hown.closed
  have hold : old.target ∈ c.graph := hclosed parent old (mem_edges_iff.mpr ⟨index, hslot⟩)
  have hnew : e.target ∈ c.graph := mem_of_isEqual hold heq
  rw [isEqual_eq_true_iff hclosed hold hnew] at heq
  have hcheck := checkReplace_of_bisimilar hown hlaid hslot hnew heq hfree
  have hrefl : ∀ a ∈ c.graph, c.graph.Bisimilar a a := fun a => bisimilar_refl hclosed
  by_cases hne : old = e
  · -- the slot already holds the edge
    have hrun : (Command.replace parent index e).run c = .ok (.replaced old) c := by
      simp [Command.run, Build.replaceChild, Build.check, hcheck, hne, bind, EStateM.bind, pure,
        EStateM.pure]
    refine ⟨c, hrun, rfl, ?_⟩
    exact indistinct_of_matches (matches_self.mpr isBisimulation_bisimilar) hrefl
      (fun _ => Iff.rfl) hclosed hlaid hclosed hlaid
  · have hrun : (Command.replace parent index e).run c = .ok (.replaced old)
        { c with graph := c.graph.setChild parent index old e } := by
      simp [Command.run, Build.replaceChild, Build.check, Build.write, hcheck, hne, bind,
        EStateM.bind, pure, EStateM.pure]
    refine ⟨_, hrun, rfl, ?_⟩
    have hchange : c.graph.Change (c.graph.setChild parent index old e) := .replace hcheck hne
    exact indistinct_of_matches (matches_setChild hslot heq) hrefl (fun _ => mem_setChild) hclosed
      hlaid (closed_change hclosed hchange) (laidOut_change hlaid hchange)

/-- Of two records that refer to each other, one comes to refer to the equal record that refers to
itself. -/
theorem replace_by_equal_unrolledRecord :
    Reachable (runAll unrolledRecord .fresh)
      ∧ ∃ c', (Command.replace ⟨7⟩ 0 (.owned ⟨1⟩)).run (runAll unrolledRecord .fresh)
          = .ok (.replaced (.owned ⟨6⟩)) c'
        ∧ Indistinct (runAll unrolledRecord .fresh).graph c'.graph
        ∧ c'.graph.edges ⟨7⟩ = [.owned ⟨1⟩] := by
  have hreach : Reachable (runAll unrolledRecord .fresh) := leads_runAll _ (.refl _)
  have hslot : (runAll unrolledRecord .fresh).graph.edge? ⟨7⟩ 0 = some (.owned ⟨6⟩) := by
    decide +kernel
  have hequal : (runAll unrolledRecord .fresh).graph.isEqual (Edge.owned ⟨6⟩).target
      (Edge.owned ⟨1⟩).target = .ok true := by
    decide +kernel
  have hfree : ∀ child, Edge.owned ⟨1⟩ = .owned child →
      (runAll unrolledRecord .fresh).graph.Free child
        ∧ ¬ (runAll unrolledRecord .fresh).graph.Above child ⟨7⟩ := by
    rintro child ⟨⟩
    exact ⟨⟨by decide +kernel, by decide +kernel⟩, not_above_of_isAbove (by decide +kernel)⟩
  obtain ⟨c', hrun, _, hindistinct⟩ := replace_by_equal hreach hslot hequal hfree
  refine ⟨hreach, c', hrun, hindistinct, ?_⟩
  have hafter : c' =
      after (Command.replace ⟨7⟩ 0 (.owned ⟨1⟩)).run (runAll unrolledRecord .fresh) := by
    rw [after, hrun]
  rw [hafter]
  decide +kernel

/-! ## Equal nodes of one graph -/

/-- **Equal nodes give equal answers.** Nodes that are structurally equal are both resolved or both
not, have the same shape behind them, and both have no type or have types that are structurally
equal. -/
theorem equal_nodes_interchangeable {c : Context} (hc : Reachable c) {a b : NodeId}
    (ha : a ∈ c.graph) (heq : c.graph.isEqual a b = .ok true) :
    (∃ answer, c.graph.isResolved a = .ok answer ∧ c.graph.isResolved b = .ok answer)
      ∧ (∃ shape?, c.graph.valueType a = .ok shape? ∧ c.graph.valueType b = .ok shape?)
      ∧ (∃ answer, c.graph.isAllocable a = .ok answer ∧ c.graph.isAllocable b = .ok answer)
      ∧ (∃ answer, c.graph.isSortable a = .ok answer ∧ c.graph.isSortable b = .ok answer)
      ∧ (c.graph.typeOf a = .ok none ∧ c.graph.typeOf b = .ok none
        ∨ ∃ type type', c.graph.typeOf a = .ok (some type) ∧ c.graph.typeOf b = .ok (some type')
          ∧ c.graph.isEqual type type' = .ok true) := by
  have hclosed := closed_reachable hc
  have hlaid := laidOut_reachable hc
  have hmatch : c.graph.Matches c.graph c.graph.Bisimilar :=
    matches_self.mpr isBisimulation_bisimilar
  have hab : c.graph.Bisimilar a b :=
    (isEqual_eq_true_iff hclosed ha (mem_of_isEqual ha heq)).mp heq
  refine ⟨hmatch.isResolved_eq hab hclosed hclosed,
    hmatch.valueType_eq hab hclosed hclosed hlaid hlaid,
    hmatch.isAllocable_eq hab hclosed hclosed hlaid hlaid,
    hmatch.isSortable_eq hab hclosed hclosed hlaid hlaid, ?_⟩
  obtain ⟨type?, type?', hask, hask', hrel⟩ := hmatch.typeOf_rel hab hclosed hclosed
  cases hrel with
  | none => exact .inl ⟨hask, hask'⟩
  | @some type type' htypes =>
    obtain ⟨htype, htype'⟩ := hmatch.mem htypes
    exact .inr ⟨type, type', hask, hask', (isEqual_eq_true_iff hclosed htype htype').mpr htypes⟩

/-- A grouping around itself, two groupings around each other, and two literals that were made
independently, each with an expression around it. -/
def loopedGroupings : List Command := [
  .make (.begin (.expression .grouping)) .dummy,
  .make (.begin (.expression .grouping)) .dummy,
  .make (.begin (.expression .grouping)) .dummy,
  .push ⟨0⟩ (.ref ⟨0⟩),
  .push ⟨1⟩ (.ref ⟨2⟩),
  .push ⟨2⟩ (.ref ⟨1⟩),
  .freeze ⟨0⟩,
  .freeze ⟨1⟩,
  .make (.build (.typed (.literal .null) .onlyConst (.leaf .null) [])) .dummy,
  .make (.build (.typed (.literal .null) .onlyConst (.leaf .null) [])) .dummy,
  .make (.build (.node (.expression .literal) [.owned ⟨5⟩])) .dummy,
  .make (.build (.node (.expression .literal) [.owned ⟨8⟩])) .dummy]

/-- The grouping around itself equals one of the two around each other, though a chain comes back to
its start after one step on the one side and after two on the other; neither has a type. The two
expressions are equal, and their types are different nodes. -/
theorem equal_nodes_interchangeable_loopedGroupings :
    Reachable (runAll loopedGroupings .fresh)
      ∧ (runAll loopedGroupings .fresh).graph.isEqual ⟨0⟩ ⟨1⟩ = .ok true
      ∧ (runAll loopedGroupings .fresh).graph.typeOf ⟨0⟩ = .ok none
      ∧ (runAll loopedGroupings .fresh).graph.typeOf ⟨1⟩ = .ok none
      ∧ (runAll loopedGroupings .fresh).graph.typeOf ⟨9⟩ = .ok (some ⟨4⟩)
      ∧ (runAll loopedGroupings .fresh).graph.typeOf ⟨10⟩ = .ok (some ⟨7⟩)
      ∧ (runAll loopedGroupings .fresh).graph.isEqual ⟨4⟩ ⟨7⟩ = .ok true := by
  have hreach : Reachable (runAll loopedGroupings .fresh) := leads_runAll _ (.refl _)
  have hloops : (runAll loopedGroupings .fresh).graph.isEqual ⟨0⟩ ⟨1⟩ = .ok true := by
    decide +kernel
  have hnone : (runAll loopedGroupings .fresh).graph.typeOf ⟨0⟩ = .ok none := by decide +kernel
  have hsome : (runAll loopedGroupings .fresh).graph.typeOf ⟨9⟩ = .ok (some ⟨4⟩) := by
    decide +kernel
  have hother : (runAll loopedGroupings .fresh).graph.typeOf ⟨10⟩ = .ok (some ⟨7⟩) := by
    decide +kernel
  obtain ⟨_, _, _, _, ⟨_, hnone'⟩ | ⟨type, _, htype, _⟩⟩ :=
    equal_nodes_interchangeable hreach (a := ⟨0⟩) (b := ⟨1⟩) (by decide +kernel) hloops
  case inr => exact absurd (hnone.symm.trans htype) (by simp)
  obtain ⟨_, _, _, _, ⟨htype, _⟩ | ⟨type, type', htype, htype', hequal⟩⟩ :=
    equal_nodes_interchangeable hreach (a := ⟨9⟩) (b := ⟨10⟩) (by decide +kernel)
      (by decide +kernel)
  case inl => exact absurd (hsome.symm.trans htype) (by simp)
  obtain rfl : (⟨4⟩ : NodeId) = type := by simpa using hsome.symm.trans htype
  obtain rfl : (⟨7⟩ : NodeId) = type' := by simpa using hother.symm.trans htype'
  exact ⟨hreach, hloops, hnone, hnone', hsome, hother, hequal⟩

end SyntaxGraph.Graph
