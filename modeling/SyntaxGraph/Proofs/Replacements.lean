import Mathlib.Data.List.Nodup
import SyntaxGraph.Proofs.Ownership
import SyntaxGraph.Proofs.Resolved

/-!
# Replacements are counted exactly

A pass counts how often it replaced an edge by another one. The tree changes
under it while it walks: what one slot lets go another may take in, owned edges
become references and the other way round, and the pass goes on below what it
has just put in place. For the count to be the number of slots that have changed
in the end, no slot may be visited twice.

None is. A slot is visited together with the node that it belongs to, and the
node is entered from the root of the pass or through a slot that owns it. That
slot was visited just before; from then on it is left alone, since the only slot
that a replacement writes is the one at hand, and the node that it takes in is
one that nothing owns. To enter the node again the pass would have to come
through the same slot again, and to enter its root again, go round in a circle of
owners.

To speak of the slots that a run visits, the run keeps a trail of them; that
changes nothing else.
-/

namespace SyntaxGraph

/-- A place for a child: a node, and a position among its children. -/
abbrev Slot := NodeId × Nat

namespace Graph

/-- The edge of a slot. -/
def slot? (g : Graph) (slot : Slot) : Option Edge := g.edge? slot.1 slot.2

/-- The slot has another edge in the second graph. -/
def Differs (g g' : Graph) (slot : Slot) : Prop := g.slot? slot ≠ g'.slot? slot

instance (g g' : Graph) : DecidablePred (g.Differs g') :=
  fun slot => inferInstanceAs (Decidable (g.slot? slot ≠ g'.slot? slot))

/-- The slots are all those that have another edge in the second graph, each of them once. -/
structure ChangedSlots (g g' : Graph) (changed : List Slot) : Prop where
  nodup : changed.Nodup
  mem_iff : ∀ slot, slot ∈ changed ↔ g.Differs g' slot

end Graph

/-! ## The trail of a pass -/

section Trail

variable {σ τ ε α : Type}

/-- The step, done in a state with a second part of the memory, which it leaves alone. -/
def PassM.aside (step : PassM σ ε α) : PassM (σ × τ) ε α := fun s =>
  match step s.forget with
  | .ok a t => .ok a ⟨t.context, t.memory, s.memory.2⟩
  | .error cause t => .error cause ⟨t.context, t.memory, s.memory.2⟩

/-- Puts a slot at the end of the trail. -/
def PassM.note (slot : Slot) : PassM (σ × List Slot) ε Unit := fun s =>
  .ok () { s with memory := (s.memory.1, s.memory.2 ++ [slot]) }

/-- What the pass does at a slot, which is put on the trail. -/
def Pass.visitSlot (offer : Pass σ ε) (below : NodeId → PassM (σ × List Slot) ε Nat)
    (parent : NodeId) (changed index : Nat) : PassM (σ × List Slot) ε Nat := do
  PassM.note (parent, index)
  Pass.atSlot (fun id => (offer id).aside) below parent changed index

/-- What the pass does below a node, with the slots that it visits on the trail. -/
def Pass.trailBelow (offer : Pass σ ε) : (depth : Nat) → NodeId → PassM (σ × List Slot) ε Nat
  | 0, _ => PassM.stop .unending
  | depth + 1, parent => do
    let node ← PassM.ask (·.read parent)
    (List.range node.children.length).foldlM (offer.visitSlot (offer.trailBelow depth) parent) 0

/-- The pass, with the slots that it visits on the trail. -/
def Pass.trail (offer : Pass σ ε) (depth : Nat) (root : NodeId) :
    PassM (σ × List Slot) ε PassOutcome :=
  Pass.atRoot (fun id => (offer id).aside) (offer.trailBelow depth) root

/-- The slots that a run visits, in order. -/
def Pass.visited (offer : Pass σ ε) (depth : Nat) (root : NodeId) (s : PassState σ) : List Slot :=
  (after (offer.trail depth root) ⟨s.context, s.memory, []⟩).memory.2

theorem extends_aside (step : PassM σ ε α) : Extends (τ := τ) step step.aside := by
  intro s
  unfold PassM.aside
  cases step s.forget <;> rfl

theorem extends_note {x : PassM σ ε α} {x' : PassM (σ × List Slot) ε α} (h : Extends x x')
    (slot : Slot) : Extends x (do PassM.note slot; x') :=
  fun s => h { s with memory := (s.memory.1, s.memory.2 ++ [slot]) }

theorem Pass.extends_trailBelow (offer : Pass σ ε) (depth : Nat) :
    ∀ parent, Extends (offer.runBelow depth parent) (offer.trailBelow depth parent) := by
  induction depth with
  | zero => intro parent; exact extends_ask fun _ => .error .unending
  | succ depth ih =>
    intro parent
    rw [runBelow_succ, trailBelow]
    refine lifts_extends.bind (extends_ask _) fun node => ?_
    refine lifts_foldlM lifts_extends (fun changed index => ?_) _ _
    refine extends_note ?_ _
    exact lifts_atSlot lifts_extends extends_replaceChild (fun id => extends_aside (offer id)) ih
      parent changed index

/-- **The trail changes nothing else.** -/
theorem Pass.extends_trail (offer : Pass σ ε) (depth : Nat) (root : NodeId) :
    Extends (offer.run depth root) (offer.trail depth root) := by
  rw [run_eq_atRoot]
  exact lifts_atRoot lifts_extends (fun id => extends_aside (offer id))
    (offer.extends_trailBelow depth) root

end Trail

/-! ## A tour of the tree -/

namespace Graph

/-- A tour has come across the node: the node is the root, or a slot of the trail owns it. -/
def Met (g : Graph) (root : NodeId) (trail : List Slot) (id : NodeId) : Prop :=
  id = root ∨ ∃ slot ∈ trail, g.slot? slot = some (.owned id)

/-- What holds of the graph and of the slots visited so far, in a pass that set out with the graph
`start`. -/
structure Tour (start : Graph) (root : NodeId) (g : Graph) (trail : List Slot) : Prop where
  own : OwnInv g
  /-- No slot is visited twice. -/
  once : trail.Nodup
  /-- The slots that are visited are slots of nodes that the tour has come across. -/
  met : ∀ slot ∈ trail, g.Met root trail slot.1
  /-- Other slots are as they were. -/
  kept : ∀ slot, slot ∉ trail → g.slot? slot = start.slot? slot

variable {start g g' : Graph} {root : NodeId} {trail more : List Slot}

theorem Met.of_kept {id : NodeId} (h : g.Met root trail id)
    (hkept : ∀ slot ∈ trail, g'.slot? slot = g.slot? slot) : g'.Met root trail id := by
  rcases h with rfl | ⟨slot, hslot, he⟩
  · exact .inl rfl
  · exact .inr ⟨slot, hslot, (hkept slot hslot).trans he⟩

theorem Met.append {id : NodeId} (h : g.Met root trail id) (more : List Slot) :
    g.Met root (trail ++ more) id := by
  rcases h with rfl | ⟨slot, hslot, he⟩
  · exact .inl rfl
  · exact .inr ⟨slot, List.mem_append_left _ hslot, he⟩

theorem tour_nil (h : OwnInv g) (root : NodeId) : Tour g root g [] where
  own := h
  once := List.nodup_nil
  met := by simp
  kept _ _ := rfl

/-- Whatever a tour has come across is below its root. -/
theorem Tour.above (h : Tour start root g trail) (id : NodeId) :
    g.Met root trail id → g.Above root id := by
  induction id using h.own.rooted.induction with
  | _ id ih =>
    intro hmet
    rcases hmet with rfl | ⟨slot, hslot, he⟩
    · exact .here id
    · have howner : g.Owns slot.1 id := h.own.owns_of_edge? he
      exact .up howner (ih slot.1 howner (h.met slot hslot))

/-- **What the last slot owns is new to the tour.** -/
theorem Tour.not_met (h : Tour start root g (trail ++ more)) {slot : Slot} (hslot : slot ∈ more)
    {child : NodeId} (he : g.slot? slot = some (.owned child)) : ¬ g.Met root trail child := by
  rintro (rfl | ⟨other, hother, he'⟩)
  · -- the root would be owned by a node below it
    have howner : g.Owns slot.1 child := h.own.owns_of_edge? he
    refine not_above_owner h.own.rooted child slot.1 howner (h.above slot.1 ?_)
    exact h.met slot (List.mem_append_right _ hslot)
  · -- two slots would own the node
    obtain ⟨hnode, hindex⟩ := h.own.slot_unique he he'
    obtain rfl : slot = other := Prod.ext hnode hindex
    exact List.disjoint_of_nodup_append h.once hother hslot

end Graph

open SyntaxGraph.Graph

/-! ## One leg of a tour -/

/-- A leg of a tour visits the slots `new`, which belong to `top` and to nodes that the tour comes
across on this leg, and changes `n` of them. -/
structure Leg (start : Graph) (root top : NodeId) (new : List Slot) (n : Nat) (c : Context)
    (trail : List Slot) (c' : Context) : Prop where
  tour : Tour start root c'.graph (trail ++ new)
  /-- Slots visited earlier are left alone. -/
  kept : ∀ slot ∈ trail, c'.graph.slot? slot = c.graph.slot? slot
  fresh : ∀ slot ∈ new, slot.1 = top ∨ ¬ c.graph.Met root trail slot.1
  count : new.countP (start.Differs c'.graph) = n
  idle : n = 0 → c' = c

section Legs

variable {start : Graph} {root top : NodeId} {c c₁ c₂ : Context} {trail new more : List Slot}
  {n m : Nat}

theorem leg_nil (h : Tour start root c.graph trail) (top : NodeId) :
    Leg start root top [] 0 c trail c where
  tour := by rwa [List.append_nil]
  kept _ _ := rfl
  fresh := by simp
  count := rfl
  idle _ := rfl

/-- One leg after another. The second one may be about a node that the first one has come across. -/
theorem Leg.append {below : NodeId} (h : Leg start root top new n c trail c₁)
    (h' : Leg start root below more m c₁ (trail ++ new) c₂)
    (hbelow : below = top ∨ ¬ c.graph.Met root trail below) :
    Leg start root top (new ++ more) (n + m) c trail c₂ where
  tour := by
    rw [← List.append_assoc]
    exact h'.tour
  kept slot hslot := by rw [h'.kept slot (List.mem_append_left _ hslot), h.kept slot hslot]
  fresh slot hslot := by
    rcases List.mem_append.mp hslot with hslot | hslot
    · exact h.fresh slot hslot
    · rcases h'.fresh slot hslot with heq | hnot
      · exact heq ▸ hbelow
      · exact .inr fun hmet => hnot ((hmet.of_kept h.kept).append new)
  count := by
    have hsame : new.countP (start.Differs c₂.graph) = new.countP (start.Differs c₁.graph) := by
      refine List.countP_congr fun slot hslot => ?_
      rw [decide_eq_true_eq, decide_eq_true_eq, Differs, Differs,
        h'.kept slot (List.mem_append_right _ hslot)]
    rw [List.countP_append, hsame, h.count, h'.count]
  idle hsum := by
    rw [h'.idle (by omega), h.idle (by omega)]

/-- A visit to a slot, which may change it and changes no other. -/
theorem leg_visit (h : Tour start root c.graph trail) {slot : Slot} (hslot : slot ∉ trail)
    (hmet : c.graph.Met root trail slot.1) (c₁ : Context) (hown : OwnInv c₁.graph)
    (hother : ∀ other, other ≠ slot → c₁.graph.slot? other = c.graph.slot? other)
    (hidle : c.graph.slot? slot = c₁.graph.slot? slot → c₁ = c) :
    Leg start root slot.1 [slot] (if c.graph.slot? slot = c₁.graph.slot? slot then 0 else 1)
      c trail c₁ := by
  have hkept : ∀ other ∈ trail, c₁.graph.slot? other = c.graph.slot? other :=
    fun other ho => hother other fun heq => hslot (heq ▸ ho)
  refine ⟨⟨hown, ?once, ?met, ?kept⟩, hkept, by simp, ?count, fun h0 => hidle (by simpa using h0)⟩
  case once =>
    rw [List.nodup_append]
    refine ⟨h.once, by simp, fun a ha b hb hab => hslot ?_⟩
    rwa [← List.mem_singleton.mp hb, ← hab]
  case met =>
    intro other ho
    rcases List.mem_append.mp ho with ho | ho
    · exact ((h.met other ho).of_kept hkept).append _
    · rw [List.mem_singleton.mp ho]
      exact (hmet.of_kept hkept).append _
  case kept =>
    intro other ho
    rw [List.mem_append, List.mem_singleton, not_or] at ho
    rw [hother other ho.2, h.kept other ho.1]
  case count =>
    simp only [List.countP_singleton, decide_eq_true_eq, Differs, ← h.kept slot hslot, ne_eq,
      ite_not]

/-- A visit to a slot that stays as it is. -/
theorem leg_look (h : Tour start root c.graph trail) {slot : Slot} (hslot : slot ∉ trail)
    (hmet : c.graph.Met root trail slot.1) : Leg start root slot.1 [slot] 0 c trail c := by
  have hleg := leg_visit h hslot hmet c h.own (fun _ _ => rfl) fun _ => rfl
  rwa [if_pos rfl] at hleg

end Legs

/-! ## The legs of a pass -/

section Passes

variable {σ ε : Type} {start : Graph} {root parent : NodeId} {index changed total n : Nat}
  {trail : List Slot} {s t u : PassState (σ × List Slot)}

/-- The offers of the pass leave the context alone. -/
def Pass.Quiet (offer : Pass σ ε) : Prop := ∀ id s, (after (offer id) s).context = s.context

theorem Pass.Quiet.aside {offer : Pass σ ε} (h : offer.Quiet) {id : NodeId} {action : Action}
    (hrun : (offer id).aside s = .ok action t) :
    t.context = s.context ∧ t.memory.2 = s.memory.2 := by
  have hquiet := h id s.forget
  unfold PassM.aside at hrun
  unfold after at hquiet
  cases hoffer : offer id s.forget with
  | error cause u => simp [hoffer] at hrun
  | ok found u =>
    simp only [hoffer] at hrun hquiet
    injection hrun with _ ht
    exact ht ▸ ⟨hquiet, rfl⟩

/-- Replacing the child in a slot is a visit to it, after which it holds the edge. -/
theorem leg_replaceChild (h : Tour start root s.context.graph trail)
    (hslot : (parent, index) ∉ trail) (hmet : s.context.graph.Met root trail parent) {e : Edge}
    (hrun : PassM.replaceChild (ε := ε) parent index e s = .ok changed t) :
    t.memory = s.memory ∧ t.context.graph.slot? (parent, index) = some e
      ∧ Leg start root parent [(parent, index)] changed s.context trail t.context := by
  unfold PassM.replaceChild at hrun
  cases hcheck : s.context.graph.checkReplace parent index e with
  | error cause => simp [hcheck] at hrun
  | ok old =>
    have hget := edge?_of_checkReplace hcheck
    simp only [hcheck] at hrun
    split at hrun <;> injection hrun with hchanged ht <;> subst hchanged ht
    · rename_i heq
      exact ⟨rfl, heq ▸ hget, leg_look h hslot hmet⟩
    · rename_i hne
      have hset := edge?_setChild hget e
      refine ⟨rfl, (hset parent index).trans (if_pos ⟨rfl, rfl⟩), ?_⟩
      have hdiffers : s.context.graph.slot? (parent, index) ≠
          (s.context.graph.setChild parent index old e).slot? (parent, index) := by
        rw [slot?, slot?, hget, hset, if_pos ⟨rfl, rfl⟩]
        exact fun heq => hne (Option.some.inj heq)
      have hleg := leg_visit h hslot hmet
        { s.context with graph := s.context.graph.setChild parent index old e }
        (ownInv_setChild h.own hcheck hne)
        (fun other ho => (hset other.1 other.2).trans (if_neg fun heq => ho (Prod.ext heq.1 heq.2)))
        (fun heq => absurd heq hdiffers)
      rwa [if_neg hdiffers] at hleg

/-- Whenever the step starts below a node that the tour has come across and has visited no slot of,
what it does there is a leg of the tour. -/
def Tours (start : Graph) (root : NodeId) (below : NodeId → PassM (σ × List Slot) ε Nat) : Prop :=
  ∀ top s n t, below top s = .ok n t → Tour start root s.context.graph s.memory.2 →
    s.context.graph.Met root s.memory.2 top → (∀ index, (top, index) ∉ s.memory.2) →
    ∃ new, t.memory.2 = s.memory.2 ++ new ∧ Leg start root top new n s.context s.memory.2 t.context

/-- From a visit to a slot on to what is below the node that the slot owns. No slot of the visited
one's node is among the slots there. -/
theorem leg_enter {below : NodeId → PassM (σ × List Slot) ε Nat} (hbelow : Tours start root below)
    {c : Context} (h : Tour start root c.graph trail) (hmet : c.graph.Met root trail parent)
    (hvisit : Leg start root parent [(parent, index)] n c trail s.context)
    (hs : s.memory.2 = trail ++ [(parent, index)]) {child : NodeId}
    (howned : s.context.graph.slot? (parent, index) = some (.owned child)) {m : Nat}
    (hrun : below child s = .ok m t) :
    ∃ more, t.memory.2 = trail ++ (parent, index) :: more
      ∧ Leg start root parent ((parent, index) :: more) (n + m) c trail t.context
      ∧ ∀ slot ∈ more, slot.1 ≠ parent := by
  have hlast : (parent, index) ∈ [(parent, index)] := List.mem_singleton.mpr rfl
  -- the child is new to the tour, and the parent is not
  have hnew : ¬ c.graph.Met root trail child :=
    fun hc => hvisit.tour.not_met hlast howned (hc.of_kept hvisit.kept)
  have hparent : s.context.graph.Met root s.memory.2 parent :=
    hs ▸ (hmet.of_kept hvisit.kept).append _
  have hchild : s.context.graph.Met root s.memory.2 child :=
    .inr ⟨_, hs ▸ List.mem_append_right _ hlast, howned⟩
  have hne : child ≠ parent := fun heq => hnew (heq ▸ hmet)
  -- a visit to a slot of the child would have made the child known to the tour
  have hunvisited : ∀ i, (child, i) ∉ s.memory.2 := by
    intro i hi
    rw [hs, List.mem_append, List.mem_singleton, Prod.mk.injEq] at hi
    rcases hi with hi | hi
    · exact hnew (h.met _ hi)
    · exact hne hi.1
  obtain ⟨more, ht, hleg⟩ := hbelow child s m t hrun (hs ▸ hvisit.tour) hchild hunvisited
  refine ⟨more, by rw [ht, hs, List.append_assoc]; rfl, ?_, fun slot hslot => ?_⟩
  · rw [hs] at hleg
    exact hvisit.append hleg (.inr hnew)
  · rcases hleg.fresh slot hslot with heq | hnot
    · exact fun hp => hne (heq.symm.trans hp)
    · exact fun hp => hnot (hp ▸ hparent)

/-- **What a pass does at a slot** is a leg of the tour that visits the slot, and no other of the
same node. -/
theorem leg_atSlot {offer : Pass σ ε} (hquiet : offer.Quiet)
    {below : NodeId → PassM (σ × List Slot) ε Nat} (hbelow : Tours start root below)
    (h : Tour start root s.context.graph trail) (hslot : (parent, index) ∉ trail)
    (hmet : s.context.graph.Met root trail parent) (hs : s.memory.2 = trail ++ [(parent, index)])
    (hrun : Pass.atSlot (fun id => (offer id).aside) below parent changed index s = .ok total t) :
    ∃ more n, total = changed + n ∧ t.memory.2 = trail ++ (parent, index) :: more
      ∧ Leg start root parent ((parent, index) :: more) n s.context trail t.context
      ∧ ∀ slot ∈ more, slot.1 ≠ parent := by
  have hlook := leg_look h hslot hmet
  have hask : PassM.ask (fun g => .ok (g.edge? parent index)) s =
      .ok (ε := PassError ε) (s.context.graph.edge? parent index) s := rfl
  obtain ⟨slot, s', hread, hrun⟩ := run_bind_eq_ok.mp hrun
  rw [hask] at hread
  injection hread with hedge hstate
  subst hstate
  split at hrun
  case h_2 =>
    injection hrun with htotal ht
    subst htotal ht
    exact ⟨[], 0, rfl, hs, hlook, by simp⟩
  case h_1 _ child =>
    obtain ⟨action, u, hoffer, hrun⟩ := run_bind_eq_ok.mp hrun
    obtain ⟨hcontext, htrail⟩ := hquiet.aside hoffer
    -- the offer has changed nothing, so the slot is as it was read
    rw [← hcontext] at h hmet hlook hedge ⊢
    rw [← htrail] at hs
    cases action with
    | prune =>
      injection hrun with htotal ht
      subst htotal ht
      exact ⟨[], 0, rfl, hs, hlook, by simp⟩
    | descend =>
      obtain ⟨m, v, hdown, hrun⟩ := run_bind_eq_ok.mp hrun
      injection hrun with htotal ht
      subst htotal ht
      obtain ⟨more, ht, hleg, hother⟩ := leg_enter hbelow h hmet hlook hs hedge hdown
      exact ⟨more, 0 + m, by omega, ht, hleg, hother⟩
    | replace e =>
      obtain ⟨m, v, hreplace, hrun⟩ := run_bind_eq_ok.mp hrun
      obtain ⟨hmemory, he, hvisit⟩ := leg_replaceChild h hslot hmet hreplace
      have hv : v.memory.2 = trail ++ [(parent, index)] := by rw [hmemory, hs]
      cases e with
      | ref target =>
        injection hrun with htotal ht
        subst htotal ht
        exact ⟨[], m, rfl, hv, hvisit, by simp⟩
      | owned new =>
        obtain ⟨k, w, hdown, hrun⟩ := run_bind_eq_ok.mp hrun
        injection hrun with htotal ht
        subst htotal ht
        obtain ⟨more, ht, hleg, hother⟩ := leg_enter hbelow h hmet hvisit hv he hdown
        exact ⟨more, m + k, by omega, ht, hleg, hother⟩

/-- The slots of a node that are still to be visited, one after the other. -/
theorem leg_foldlM {offer : Pass σ ε} (hquiet : offer.Quiet)
    {below : NodeId → PassM (σ × List Slot) ε Nat} (hbelow : Tours start root below)
    (indices : List Nat) : ∀ {changed : Nat} {s : PassState (σ × List Slot)}, indices.Nodup →
      (∀ index ∈ indices, (parent, index) ∉ s.memory.2) →
      Tour start root s.context.graph s.memory.2 → s.context.graph.Met root s.memory.2 parent →
      indices.foldlM (offer.visitSlot below parent) changed s = .ok total t →
      ∃ new n, total = changed + n ∧ t.memory.2 = s.memory.2 ++ new
        ∧ Leg start root parent new n s.context s.memory.2 t.context := by
  induction indices with
  | nil =>
    intro changed s _ _ h _ hrun
    injection hrun with htotal ht
    subst htotal ht
    exact ⟨[], 0, rfl, (List.append_nil _).symm, leg_nil h parent⟩
  | cons index rest ih =>
    intro changed s hnodup hopen h hmet hrun
    rw [List.foldlM_cons] at hrun
    obtain ⟨sum, u, hfirst, hrun⟩ := run_bind_eq_ok.mp hrun
    obtain ⟨_, v, hnote, hfirst⟩ := run_bind_eq_ok.mp hfirst
    injection hnote with _ hv
    obtain ⟨hindex, hrest⟩ := List.nodup_cons.mp hnodup
    rw [List.forall_mem_cons] at hopen
    have hcontext : v.context = s.context := by rw [← hv]
    have htrail : v.memory.2 = s.memory.2 ++ [(parent, index)] := by rw [← hv]
    rw [← hcontext] at h hmet ⊢
    obtain ⟨more, n, hsum, hu, hleg, hother⟩ :=
      leg_atSlot hquiet hbelow h hopen.1 hmet htrail hfirst
    -- the slots that are left have not been visited since
    have hopen' : ∀ i ∈ rest, (parent, i) ∉ u.memory.2 := by
      intro i hi hmem
      rw [hu, List.mem_append, List.mem_cons, Prod.mk.injEq] at hmem
      rcases hmem with hmem | ⟨-, rfl⟩ | hmem
      · exact hopen.2 i hi hmem
      · exact hindex hi
      · exact hother _ hmem rfl
    have hmet' : u.context.graph.Met root u.memory.2 parent :=
      hu ▸ (hmet.of_kept hleg.kept).append _
    obtain ⟨new, m, htotal, ht, hleg'⟩ := ih hrest hopen' (hu ▸ hleg.tour) hmet' hrun
    rw [hu] at hleg'
    refine ⟨(parent, index) :: more ++ new, n + m, by omega, ?_, hleg.append hleg' (.inl rfl)⟩
    rw [ht, hu, List.append_assoc]

/-- **What a pass does below a node** is a leg of the tour. -/
theorem tours_trailBelow {offer : Pass σ ε} (hquiet : offer.Quiet) (depth : Nat) :
    Tours start root (offer.trailBelow depth) := by
  induction depth with
  | zero =>
    intro top s n t hrun
    cases hrun
  | succ depth ih =>
    intro top s n t hrun h hmet hopen
    rw [Pass.trailBelow] at hrun
    obtain ⟨node, u, hask, hloop⟩ := run_bind_eq_ok.mp hrun
    obtain rfl : u = s := by
      unfold PassM.ask at hask
      cases hread : s.context.graph.read top with
      | error fault => simp [hread] at hask
      | ok found =>
        simp only [hread] at hask
        injection hask with _ hu
        exact hu.symm
    obtain ⟨new, m, hn, ht, hleg⟩ := leg_foldlM hquiet ih _ List.nodup_range
      (fun index _ => hopen index) h hmet hloop
    rw [Nat.zero_add] at hn
    exact ⟨new, ht, hn ▸ hleg⟩

/-- **A pass is one leg** of a tour that begins at the root that it leaves behind. -/
theorem leg_trail {offer : Pass σ ε} (hquiet : offer.Quiet) {depth : Nat} {outcome : PassOutcome}
    (hown : OwnInv s.context.graph) (hs : s.memory.2 = [])
    (hrun : offer.trail depth root s = .ok outcome t) :
    ∃ n, outcome.replacements = n + (if outcome.root = root then 0 else 1)
      ∧ Leg s.context.graph outcome.root outcome.root t.memory.2 n s.context [] t.context := by
  obtain ⟨action, u, hoffer, hrun⟩ := run_bind_eq_ok.mp hrun
  obtain ⟨hcontext, htrail⟩ := hquiet.aside hoffer
  rw [← hcontext] at hown ⊢
  rw [← htrail] at hs
  -- wherever the pass goes on, it has visited nothing yet
  have hleg : ∀ {top m v}, offer.trailBelow depth top u = .ok m v →
      Leg u.context.graph top top v.memory.2 m u.context [] v.context := by
    intro top m v hdown
    obtain ⟨new, hv, hleg⟩ := tours_trailBelow hquiet depth top u m v hdown
      (hs ▸ tour_nil hown top) (.inl rfl) (by simp [hs])
    rw [hs] at hv hleg
    rwa [hv]
  cases action with
  | prune =>
    injection hrun with houtcome ht
    subst houtcome ht
    exact ⟨0, by simp, hs ▸ leg_nil (tour_nil hown root) root⟩
  | descend =>
    obtain ⟨m, v, hdown, hrun⟩ := run_bind_eq_ok.mp hrun
    injection hrun with houtcome ht
    subst houtcome ht
    exact ⟨m, by simp, hleg hdown⟩
  | replace e =>
    cases e with
    | ref target =>
      injection hrun with houtcome ht
      subst houtcome ht
      exact ⟨0, by simp, hs ▸ leg_nil (tour_nil hown target) target⟩
    | owned new =>
      obtain ⟨m, v, hdown, hrun⟩ := run_bind_eq_ok.mp hrun
      injection hrun with houtcome ht
      subst houtcome ht
      exact ⟨m, Nat.add_comm _ _, hleg hdown⟩

/-- The slots that a leg changes are those that it visits and leaves different. -/
theorem Leg.changedSlots {c c' : Context} {new : List Slot}
    (h : Leg c.graph root root new n c [] c') :
    ChangedSlots c.graph c'.graph (new.filter (c.graph.Differs c'.graph)) where
  nodup := h.tour.once.filter _
  mem_iff slot := by
    rw [List.mem_filter, decide_eq_true_eq, and_iff_right_iff_imp]
    intro hdiffers
    by_contra hslot
    exact hdiffers (h.tour.kept slot hslot).symm

/-- **Replacements are counted exactly.** If a pass whose offers leave the context alone comes to an
end, it has visited no slot twice, and it reports as many replacements as there are slots whose edge
is another one than before, and one more if it put another node in the place of its root. The
changed slots are among the visited ones and belong to nodes of the tree that the pass leaves
behind. So it reports none exactly if nothing has changed. -/
theorem replacements_exact {c : Context} (hc : Reachable c) {offer : Pass σ ε}
    (hquiet : offer.Quiet) {depth : Nat} {memory : σ} {outcome : PassOutcome} {t : PassState σ}
    (hrun : offer.run depth root ⟨c, memory⟩ = .ok outcome t) :
    (offer.visited depth root ⟨c, memory⟩).Nodup
      ∧ (∃ changed, ChangedSlots c.graph t.context.graph changed
        ∧ outcome.replacements = changed.length + (if outcome.root = root then 0 else 1)
        ∧ ∀ slot ∈ changed, slot ∈ offer.visited depth root ⟨c, memory⟩
          ∧ t.context.graph.Above outcome.root slot.1)
      ∧ (outcome.replacements = 0 ↔ t.context = c ∧ outcome.root = root) := by
  obtain ⟨t', htrail, rfl⟩ :=
    (offer.extends_trail depth root).run_eq_ok (s := ⟨c, memory, []⟩) hrun
  obtain ⟨n, hn, hleg⟩ := leg_trail hquiet (ownInv_reachable hc) rfl htrail
  have hvisited : offer.visited depth root ⟨c, memory⟩ = t'.memory.2 := by
    rw [Pass.visited, after, htrail]
  have hchanged := hleg.changedSlots
  have hlength : (t'.memory.2.filter (c.graph.Differs t'.context.graph)).length = n := by
    rw [← List.countP_eq_length_filter]
    exact hleg.count
  rw [hvisited]
  refine ⟨hleg.tour.once, ⟨_, hchanged, by rw [hn, hlength], fun slot hslot => ?_⟩, ?_⟩
  · have hmem : slot ∈ t'.memory.2 := List.mem_of_mem_filter hslot
    exact ⟨hmem, hleg.tour.above _ (hleg.tour.met slot hmem)⟩
  · constructor
    · intro hzero
      rw [hzero] at hn
      have hroot : outcome.root = root := by
        by_contra hne
        rw [if_neg hne] at hn
        omega
      exact ⟨hleg.idle (by omega), hroot⟩
    · rintro ⟨hcontext, hroot⟩
      have hnone : t'.memory.2.filter (c.graph.Differs t'.context.graph) = [] := by
        refine List.eq_nil_iff_forall_not_mem.mpr fun slot hslot => ?_
        exact (hchanged.mem_iff slot).mp hslot (hcontext ▸ rfl)
      rw [hnone] at hlength
      rw [hn, if_pos hroot, ← hlength]
      rfl

end Passes

/-- Lets the second field share the wrapper of the first, and moves the wrapper of the second field
to the last. -/
def passOn : Pass Unit Unit := fun id =>
  pure <|
    if id = ⟨5⟩ then .replace (.ref ⟨7⟩)
    else if id = ⟨2⟩ then .replace (.owned ⟨5⟩)
    else .descend

/-- The wrapper is let go at one slot and taken in at a later one, where the pass goes on below it.
Two slots have changed, and none was visited twice. -/
theorem replacements_exact_unfinishedRecord :
    Reachable (runAll unfinishedRecord .fresh) ∧ passOn.Quiet
      ∧ (passOn.visited 5 ⟨0⟩ ⟨runAll unfinishedRecord .fresh, ()⟩).Nodup
      ∧ passOn.visited 5 ⟨0⟩ ⟨runAll unfinishedRecord .fresh, ()⟩ =
        [(⟨0⟩, 0), (⟨8⟩, 0), (⟨7⟩, 0), (⟨0⟩, 1), (⟨6⟩, 0), (⟨0⟩, 2), (⟨9⟩, 0), (⟨0⟩, 3), (⟨3⟩, 0),
          (⟨5⟩, 0)]
      ∧ ∃ changed, changed.length = 2 ∧ ChangedSlots (runAll unfinishedRecord .fresh).graph
        (after (passOn.run 5 ⟨0⟩) ⟨runAll unfinishedRecord .fresh, ()⟩).context.graph changed := by
  have hreach : Reachable (runAll unfinishedRecord .fresh) := leads_runAll _ (.refl _)
  have hquiet : passOn.Quiet := fun _ _ => rfl
  have hok : (match passOn.run 5 ⟨0⟩ ⟨runAll unfinishedRecord .fresh, ()⟩ with
      | .ok outcome _ => some outcome
      | .error _ _ => none) = some ⟨⟨0⟩, 2⟩ := by decide +kernel
  cases hrun : passOn.run 5 ⟨0⟩ ⟨runAll unfinishedRecord .fresh, ()⟩ with
  | error cause t => simp [hrun] at hok
  | ok outcome t =>
    simp only [hrun, Option.some.injEq] at hok
    subst hok
    obtain ⟨honce, ⟨changed, hchanged, hcount, _⟩, _⟩ := replacements_exact hreach hquiet hrun
    refine ⟨hreach, hquiet, honce, by decide +kernel, changed, hcount.symm, ?_⟩
    rw [after, hrun]
    exact hchanged

end SyntaxGraph
