import SyntaxGraph.Proofs.Depth
import SyntaxGraph.Proofs.Forwarding
import SyntaxGraph.Proofs.Preorder

/-!
# Looking and working leave out the same

There are two ways through a tree. A walk takes the owned children of a node as
they are. A pass counts the slots of a node and looks into each of them when it
comes to it, for by then it may have put something else there. Both may leave out
what is below a node.

As long as a pass puts nothing anywhere, the two meet the same nodes in the same
order: those of the tree that are in sight of its root, that is, with no node
between them and the root, the root included, below which nothing is to be met.
Slots that refer to a node are passed over by both. The pass leaves everything as
it was.
-/

namespace SyntaxGraph

/-- A visitor that notes each node, and goes below it unless it is to be pruned. -/
def Graph.noting (prune : NodeId → Bool) : Graph.Visitor (List NodeId) := fun id _ log =>
  (!prune id, log ++ [id])

/-- A pass that notes each node that it is offered, and goes below it unless it is to be pruned. -/
def Pass.noting {ε : Type} (prune : NodeId → Bool) : Pass (List NodeId) ε := fun id s =>
  .ok (if prune id then .prune else .descend) ⟨s.context, s.memory ++ [id]⟩

namespace Graph

variable {g : Graph} {prune : NodeId → Bool}

/-! ## In sight of the root -/

/-- No other node of the tree that has this node in its own tree is pruned. -/
def inSight (g : Graph) (prune : NodeId → Bool) (root id : NodeId) : Bool :=
  (g.preorder root).all fun above => above == id || !prune above || !(g.preorder above).contains id

/-- The list of a tree without what is out of sight. -/
def shown (g : Graph) (prune : NodeId → Bool) (root : NodeId) : List NodeId :=
  (g.preorder root).filter (g.inSight prune root)

theorem OwnInv.inSight_iff (h : OwnInv g) {root : NodeId} (hroot : root ∈ g) (id : NodeId) :
    g.inSight prune root id = true ↔
      ∀ above, g.Above root above → g.Above above id → above ≠ id → prune above = false := by
  rw [inSight, List.all_eq_true]
  refine forall_congr' fun above => ?_
  rw [h.mem_preorder hroot]
  refine forall_congr' fun hin => ?_
  have hmem : id ∈ g.preorder above ↔ g.Above above id :=
    h.mem_preorder (h.mem_of_above hroot hin)
  simp only [Bool.or_eq_true, beq_iff_eq, Bool.not_eq_true', ← Bool.not_eq_true,
    List.contains_iff_mem, hmem]
  tauto

theorem OwnInv.inSight_root (h : OwnInv g) {root : NodeId} (hroot : root ∈ g) :
    g.inSight prune root root = true := by
  refine (h.inSight_iff hroot root).mpr fun above hin hup hne => ?_
  rcases above_iff_owned.mp hin with rfl | ⟨child, ho, hchild⟩
  · exact absurd rfl hne
  · -- a child of the root would be above it
    exact absurd (above_trans hchild hup) (not_above_owner h.rooted child root ho)

/-- Below a node that is not pruned, what is in sight of a child is in sight of its owner. -/
theorem OwnInv.inSight_owner (h : OwnInv g) {root child : NodeId} (hprune : prune root = false)
    (ho : g.Owns root child) {id : NodeId} (hid : g.Above child id) :
    g.inSight prune root id = g.inSight prune child id := by
  have hchild := h.child_mem ho
  rw [Bool.eq_iff_iff, h.inSight_iff (h.owner_mem ho), h.inSight_iff hchild]
  constructor
  · exact fun hall above hin => hall above (above_owner hin ho)
  · intro hall above hin hup hne
    rcases above_iff_owned.mp hin with rfl | ⟨sibling, ho', hsibling⟩
    · exact hprune
    · -- the way up from the node leads through this child only
      by_cases hsame : sibling = child
      · exact hall above (hsame ▸ hsibling) hup hne
      · exact absurd hid (h.siblings_apart ho' ho hsame (above_trans hsibling hup))

theorem OwnInv.inSight_pruned (h : OwnInv g) {root child : NodeId} (hprune : prune root = true)
    (ho : g.Owns root child) {id : NodeId} (hid : g.Above child id) :
    g.inSight prune root id = false := by
  have hroot := h.owner_mem ho
  refine Bool.eq_false_iff.mpr fun hsight => ?_
  have hne : root ≠ id := by
    rintro rfl
    exact not_above_owner h.rooted child root ho hid
  have hshows := (h.inSight_iff hroot id).mp hsight root (.here root) (above_owner hid ho) hne
  exact absurd (hprune.symm.trans hshows) (by simp)

/-- **What is in sight** of a root is the root and, unless it is pruned, what is in sight of its
children, from left to right. -/
theorem OwnInv.shown_eq (h : OwnInv g) {id : NodeId} (hid : id ∈ g) :
    g.shown prune id =
      id :: if prune id then [] else (g.ownedChildren id).flatMap (g.shown prune) := by
  have hbelow : ∀ child ∈ g.ownedChildren id, g.Owns id child ∧
      ∀ below ∈ g.preorder child, g.Above child below := fun child hchild =>
    have ho := h.mem_ownedChildren.mp hchild
    ⟨ho, fun _ hin => (h.mem_preorder (h.child_mem ho)).mp hin⟩
  rw [shown, h.preorder_eq hid, List.filter_cons, if_pos (h.inSight_root hid), List.filter_flatMap]
  cases hprune : prune id with
  | true =>
    -- all that is below is out of sight
    refine congrArg (id :: ·) (List.flatMap_eq_nil_iff.mpr fun child hchild => ?_)
    obtain ⟨ho, hall⟩ := hbelow child hchild
    refine List.filter_eq_nil_iff.mpr fun below hin => ?_
    simp [h.inSight_pruned hprune ho (hall below hin)]
  | false =>
    refine congrArg (id :: ·) (List.flatMap_congr fun child hchild => ?_)
    obtain ⟨ho, hall⟩ := hbelow child hchild
    exact List.filter_congr fun below hin => h.inSight_owner hprune ho (hall below hin)

theorem OwnInv.mem_shown (h : OwnInv g) {root : NodeId} (hroot : root ∈ g) (id : NodeId) :
    id ∈ g.shown prune root ↔ g.Above root id ∧
      ∀ above, g.Above root above → g.Above above id → above ≠ id → prune above = false := by
  rw [shown, List.mem_filter, h.mem_preorder hroot, h.inSight_iff hroot]

/-! ## The walk -/

theorem foldl_shown (g : Graph) (prune : NodeId → Bool) (ids : List NodeId) :
    ∀ log : List NodeId, ids.foldl (fun log id => log ++ g.shown prune id) log =
      log ++ ids.flatMap (g.shown prune) := by
  induction ids with
  | nil => simp
  | cons id rest ih => intro log; simp [ih]

theorem OwnInv.follows_noting (h : OwnInv g) :
    g.Follows (noting prune) fun id log => log ++ g.shown prune id := by
  intro id node hn log
  dsimp only [noting]
  rw [h.shown_eq (mem_iff_node?.mpr ⟨node, hn⟩), foldl_shown]
  by_cases hprune : prune id = true <;> simp [hprune]

/-! ## The pass -/

/-- What a slot owns, if there is such a slot and it owns something. -/
def ownedAt (g : Graph) (parent : NodeId) (index : Nat) : Option NodeId :=
  (g.edge? parent index).bind Edge.child?

theorem ownedChildren_eq_slots (g : Graph) (parent : NodeId) :
    g.ownedChildren parent =
      (List.range (g.edges parent).length).filterMap (g.ownedAt parent) := by
  have hrange : ∀ edges : List Edge, edges.filterMap Edge.child? =
      (List.range edges.length).filterMap fun index => edges[index]?.bind Edge.child? := by
    intro edges
    induction edges with
    | nil => rfl
    | cons e rest ih =>
      rw [List.length_cons, List.range_succ_eq_map, List.filterMap_cons, List.filterMap_cons,
        List.filterMap_map, ih]
      rfl
  exact hrange (g.edges parent)

end Graph

section Pass

variable {ε : Type} {c : Context} {prune : NodeId → Bool}

theorem Pass.noting_eq (prune : NodeId → Bool) (id : NodeId) (c : Context) (log : List NodeId) :
    noting (ε := ε) prune id ⟨c, log⟩ =
      .ok (if prune id then .prune else .descend) ⟨c, log ++ [id]⟩ := rfl

/-- Some slots of a node are left to the pass. It has changed nothing, and what it has noted and
what is in sight through these slots make up the whole. -/
structure Notes (c : Context) (prune : NodeId → Bool) (parent : NodeId) (whole : List NodeId)
    (slots : List Nat) (changed : Nat) (s : PassState (List NodeId)) : Prop where
  unchanged : changed = 0
  context : s.context = c
  noted : s.memory ++ (slots.filterMap (c.graph.ownedAt parent)).flatMap (c.graph.shown prune) =
    whole

/-- The pass notes what is in sight below a node, and changes nothing. -/
def NotesBelow (c : Context) (prune : NodeId → Bool) (below : NodeId → PassM (List NodeId) ε Nat)
    (id : NodeId) : Prop :=
  ∀ log, Yields (fun _ => False) (below id) ⟨c, log⟩ fun changed t =>
    changed = 0 ∧ t = ⟨c, log ++ (c.graph.ownedChildren id).flatMap (c.graph.shown prune)⟩

theorem Notes.atSlot (h : c.graph.OwnInv) {below : NodeId → PassM (List NodeId) ε Nat}
    {parent : NodeId} (hbelow : ∀ child, c.graph.Owns parent child → NotesBelow c prune below child)
    {whole : List NodeId} {changed index : Nat} {rest : List Nat} {s : PassState (List NodeId)}
    (hs : Notes c prune parent whole (index :: rest) changed s) :
    Yields (fun _ => False) ((Pass.noting prune).atSlot below parent changed index) s
      (Notes c prune parent whole rest) := by
  obtain ⟨now, log⟩ := s
  obtain ⟨rfl, hcontext, hnoted⟩ := hs
  obtain rfl : c = now := hcontext.symm
  rw [List.filterMap_cons, Graph.ownedAt] at hnoted
  refine Pass.yields_atSlot (fun hvacant => ⟨rfl, rfl, ?_⟩) fun child hedge => ?_
  · -- a slot that owns nothing has nothing in sight
    split at hnoted
    · exact hnoted
    next child hchild =>
      obtain ⟨e, hedge, he⟩ := Option.bind_eq_some_iff.mp hchild
      exact absurd (Edge.child?_eq_some.mp he ▸ hedge) (hvacant child)
  · have ho := h.owns_of_edge? hedge
    dsimp only at hedge
    rw [hedge] at hnoted
    dsimp only [Option.bind_some, Edge.child?] at hnoted
    rw [List.flatMap_cons, h.shown_eq (h.child_mem ho)] at hnoted
    refine (yields_of_ok (Pass.noting_eq prune child c log)).mpr ?_
    cases hprune : prune child with
    | true =>
      rw [if_pos hprune] at hnoted
      exact ⟨rfl, rfl, by simpa using hnoted⟩
    | false =>
      rw [if_neg (by simp [hprune])] at hnoted
      refine (hbelow child ho (log ++ [child])).mono ?_
      rintro _ _ ⟨rfl, rfl⟩
      exact ⟨rfl, rfl, by simpa using hnoted⟩

/-- **Below a node the pass notes what is in sight of the children**, deep enough. -/
theorem Graph.OwnInv.notesBelow (h : c.graph.OwnInv) (depth : Nat) : ∀ {limit : Nat} {id : NodeId},
    id ∈ c.graph → c.graph.Shallow depth id → depth ≤ limit →
      NotesBelow c prune ((Pass.noting (ε := ε) prune).runBelow limit) id := by
  induction depth with
  | zero => exact fun _ hs => absurd hs fun hs => hs
  | succ depth ih =>
    intro limit id hid hs hle log
    obtain ⟨limit, rfl⟩ : ∃ m, limit = m + 1 := ⟨limit - 1, by omega⟩
    obtain ⟨node, hn⟩ := Graph.mem_iff_node?.mp hid
    have hslots := c.graph.ownedChildren_eq_slots id
    rw [Graph.edges_of_node? hn] at hslots
    have hbelow : ∀ child, c.graph.Owns id child →
        NotesBelow c prune ((Pass.noting (ε := ε) prune).runBelow limit) child := fun child ho =>
      ih (h.child_mem ho) (hs child (h.mem_ownedChildren.mpr ho)) (by omega)
    have hrun := Pass.yields_runBelow (s := ⟨c, log⟩)
      (I := Notes c prune id (log ++ (c.graph.ownedChildren id).flatMap (c.graph.shown prune)))
      hn (fun _ _ _ _ ht => ht.atSlot h hbelow) ⟨rfl, rfl, by rw [hslots]⟩
    refine hrun.mono ?_
    rintro _ ⟨_, memory⟩ ⟨rfl, rfl, hnoted⟩
    exact ⟨rfl, by rw [← hnoted]; simp⟩

end Pass

/-- **Looking and working leave out the same.** In a context that a program comes to, take any root
and any choice of nodes to prune. A visitor that goes below all other nodes, and a pass that prunes
these and goes below the others, meet the same nodes in the same order, and none twice: of the list
of the tree, those that no pruned node of the tree other than themselves is above. As deep as the
graph has nodes is deep enough for the pass; it leaves the context and the root as they are, and has
changed no edge. -/
theorem walks_agree {c : Context} (hc : Reachable c) {root : NodeId} (hroot : root ∈ c.graph)
    (prune : NodeId → Bool) {ε : Type} :
    c.graph.visit (Graph.noting prune) root [] = .ok (c.graph.shown prune root)
      ∧ (∀ depth, c.graph.size ≤ depth →
        (Pass.noting (ε := ε) prune).run depth root ⟨c, []⟩ =
          .ok ⟨root, 0⟩ ⟨c, c.graph.shown prune root⟩)
      ∧ (c.graph.shown prune root).Sublist (c.graph.preorder root)
      ∧ (c.graph.preorder root).Nodup
      ∧ ∀ id, id ∈ c.graph.shown prune root ↔ id ∈ c.graph.preorder root ∧
        ∀ above ∈ c.graph.preorder root, c.graph.Above above id → above ≠ id →
          prune above = false := by
  have h := Graph.ownInv_reachable hc
  refine ⟨?_, fun depth hdepth => eq_ok_of_yields ?_, List.filter_sublist, h.nodup_preorder hroot,
    fun id => ?_⟩
  · simpa using h.visit_eq_ok h.follows_noting hroot []
  · have hbelow : NotesBelow c prune ((Pass.noting (ε := ε) prune).runBelow depth) root :=
      h.notesBelow c.graph.size hroot (h.shallow hroot) hdepth
    refine Pass.yields_run ((yields_of_ok (Pass.noting_eq prune root c [])).mpr ?_)
    rw [h.shown_eq hroot]
    cases hprune : prune root with
    | true => exact ⟨rfl, rfl⟩
    | false =>
      refine (hbelow [root]).mono ?_
      rintro _ _ ⟨rfl, rfl⟩
      exact ⟨rfl, rfl⟩
  · rw [h.mem_shown hroot, h.mem_preorder hroot]
    simp only [h.mem_preorder hroot]

/-- Picks one side of the sample's assignment, and on the other side a literal and its type. -/
def sides (id : NodeId) : Bool := [⟨9⟩, ⟨8⟩, ⟨7⟩].contains id

/-- The conditional refers to two nodes and owns an assignment in the slot between them. Below the
left side of the assignment nothing is met, and of the right side the expression and its literal. -/
theorem walks_agree_crossroads :
    let c := runAll Graph.crossroads .fresh
    Reachable c ∧ ⟨12⟩ ∈ c.graph
      ∧ c.graph.edges ⟨12⟩ = [.ref ⟨9⟩, .owned ⟨11⟩, .ref ⟨0⟩]
      ∧ c.graph.preorder ⟨12⟩ = [⟨12⟩, ⟨11⟩, ⟨9⟩, ⟨5⟩, ⟨4⟩, ⟨3⟩, ⟨10⟩, ⟨8⟩, ⟨7⟩, ⟨6⟩]
      ∧ c.graph.visit (Graph.noting sides) ⟨12⟩ [] = .ok [⟨12⟩, ⟨11⟩, ⟨9⟩, ⟨10⟩, ⟨8⟩]
      ∧ ∀ depth, c.graph.size ≤ depth →
        (Pass.noting (ε := Unit) sides).run depth ⟨12⟩ ⟨c, []⟩ =
          .ok ⟨⟨12⟩, 0⟩ ⟨c, [⟨12⟩, ⟨11⟩, ⟨9⟩, ⟨10⟩, ⟨8⟩]⟩ := by
  have hc : Reachable (runAll Graph.crossroads .fresh) := leads_runAll Graph.crossroads (.refl _)
  have hroot : ⟨12⟩ ∈ (runAll Graph.crossroads .fresh).graph := by decide +kernel
  have hshown : (runAll Graph.crossroads .fresh).graph.shown sides ⟨12⟩ =
      [⟨12⟩, ⟨11⟩, ⟨9⟩, ⟨10⟩, ⟨8⟩] := by decide +kernel
  obtain ⟨hvisit, hrun, -⟩ := walks_agree hc hroot sides (ε := Unit)
  rw [hshown] at hvisit hrun
  exact ⟨hc, hroot, by decide +kernel, by decide +kernel, hvisit, hrun⟩

end SyntaxGraph
