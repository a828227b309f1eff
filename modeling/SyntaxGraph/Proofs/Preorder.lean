import Mathlib.Data.List.Nodup
import SyntaxGraph.Proofs.Ownership
import SyntaxGraph.Walk

/-!
# A walk lists what is owned, near or far

A tree is written down in two ways. Down from its root the edges own the children
of a node, and their children; up from each of its nodes the owners lead to the
root. A walk goes down. What it meets is nevertheless described by going up: the
nodes from which the owners lead to the root, every one of them once.

That both ways agree is the ownership invariant. It also says that a walk ends:
the nodes in a row, each owned by the one before, are all different, so there are
no more of them than nodes in the graph (`Shallow`). What references do does not
matter, for a walk does not follow them.
-/

namespace SyntaxGraph.Graph

variable {g : Graph}

/-! ## The way up is a line -/

theorem above_trans {a b id : NodeId} (hab : g.Above a b) (hid : g.Above b id) : g.Above a id := by
  induction hid with
  | here => exact hab
  | up hp _ ih => exact .up hp ih

/-- Of two nodes above a third one, one is above the other. -/
theorem above_linear {a b id : NodeId} (ha : g.Above a id) (hb : g.Above b id) :
    g.Above a b ∨ g.Above b a := by
  induction ha with
  | here => exact .inr hb
  | up hp hup ih =>
    cases hb with
    | here => exact .inl (.up hp hup)
    | up hp' hup' => exact ih (owns_unique hp' hp ▸ hup')

/-- The way down from a node begins with a child that it owns. -/
theorem above_iff_owned {root id : NodeId} :
    g.Above root id ↔ id = root ∨ ∃ child, g.Owns root child ∧ g.Above child id := by
  constructor
  · intro h
    induction h with
    | here => exact .inl rfl
    | up hp _ ih =>
      rcases ih with rfl | ⟨child, ho, habove⟩
      · exact .inr ⟨_, hp, .here _⟩
      · exact .inr ⟨child, ho, .up hp habove⟩
  · intro h
    rcases h with rfl | ⟨child, ho, habove⟩
    · exact .here id
    · exact above_owner habove ho

theorem ownedChildren_of_node? {id : NodeId} {node : Node} (hn : g.node? id = some node) :
    g.ownedChildren id = node.ownedChildren := by
  rw [ownedChildren, edges_of_node? hn, Node.ownedChildren]

theorem OwnInv.mem_ownedChildren (h : OwnInv g) {owner child : NodeId} :
    child ∈ g.ownedChildren owner ↔ g.Owns owner child := by
  rw [h.owner_iff, ownedChildren, List.mem_filterMap]
  simp

theorem OwnInv.child_mem (h : OwnInv g) {owner child : NodeId} (ho : g.Owns owner child) :
    child ∈ g :=
  h.closed owner _ ((h.owner_iff owner child).mp ho)

/-- No node is owned through two slots, so none is listed twice among the children. -/
theorem OwnInv.nodup_ownedChildren (h : OwnInv g) (owner : NodeId) :
    (g.ownedChildren owner).Nodup := by
  refine List.pairwise_filterMap.mpr (List.pairwise_iff_getElem.mpr fun i j hi hj hlt => ?_)
  intro a ha b hb hab
  have hslot : g.edge? owner i = some (.owned a) :=
    List.getElem?_eq_some_iff.mpr ⟨hi, Edge.child?_eq_some.mp ha⟩
  have hslot' : g.edge? owner j = some (.owned a) :=
    List.getElem?_eq_some_iff.mpr ⟨hj, Edge.child?_eq_some.mp (hab ▸ hb)⟩
  have hij : i = j := h.once owner a i j hslot hslot'
  omega

/-- Trees of different children of one node have no node in common. -/
theorem OwnInv.siblings_apart (h : OwnInv g) {owner a b : NodeId} (ha : g.Owns owner a)
    (hb : g.Owns owner b) (hne : a ≠ b) {id : NodeId} (haid : g.Above a id) :
    ¬ g.Above b id := by
  intro hbid
  -- the one above the other would be above their owner
  have key : ∀ {a b : NodeId}, g.Owns owner a → g.Owns owner b → a ≠ b → ¬ g.Above a b := by
    intro a b ha hb hne habove
    cases habove with
    | here => exact hne rfl
    | up hp hup => exact not_above_owner h.rooted a owner ha (owns_unique hb hp ▸ hup)
  rcases above_linear haid hbid with hab | hba
  · exact key ha hb hne hab
  · exact key hb ha hne.symm hba

/-! ## How deep a tree is -/

/-- No more than `depth` nodes follow each other down the tree, the node being the first. -/
def Shallow (g : Graph) : (depth : Nat) → NodeId → Prop
  | 0, _ => False
  | depth + 1, id => ∀ child ∈ g.ownedChildren id, g.Shallow depth child

/-- The nodes above a node leave that much room below it. -/
theorem OwnInv.shallow_below (h : OwnInv g) (depth : Nat) : ∀ {id : NodeId} {way : List NodeId},
    (id :: way).Nodup → (∀ a ∈ id :: way, a ∈ g ∧ g.Above a id) →
      g.size ≤ depth + way.length → g.Shallow depth id := by
  induction depth with
  | zero =>
    intro id way hnodup hway hsize
    have hle := length_le_size hnodup fun a ha => (hway a ha).1
    rw [List.length_cons] at hle
    omega
  | succ depth ih =>
    intro id way hnodup hway hsize child hchild
    have ho : g.Owns id child := h.mem_ownedChildren.mp hchild
    refine @ih child (id :: way) (List.nodup_cons.mpr ⟨fun hm => ?_, hnodup⟩) ?_ ?_
    · exact not_above_owner h.rooted child id ho (hway child hm).2
    · intro a ha
      rcases List.mem_cons.mp ha with rfl | ha
      · exact ⟨h.child_mem ho, .here a⟩
      · exact ⟨(hway a ha).1, .up ho (hway a ha).2⟩
    · rw [List.length_cons]
      omega

/-- **No tree is deeper than the graph has nodes.** -/
theorem OwnInv.shallow (h : OwnInv g) {id : NodeId} (hid : id ∈ g) : g.Shallow g.size id := by
  refine @shallow_below g h g.size id [] (by simp) (fun a ha => ?_) (Nat.le_refl _)
  obtain rfl := List.mem_singleton.mp ha
  exact ⟨hid, .here a⟩

/-! ## The list of a tree -/

/-- What is deep enough for a tree lists all of it. -/
theorem preorderWithin_eq (depth : Nat) : ∀ {id : NodeId} {limit : Nat},
    g.Shallow depth id → depth ≤ limit → g.preorderWithin limit id = g.preorderWithin depth id := by
  induction depth with
  | zero => exact fun h _ => absurd h id
  | succ depth ih =>
    intro id limit h hle
    obtain ⟨limit, rfl⟩ : ∃ m, limit = m + 1 := ⟨limit - 1, by omega⟩
    have hchildren : (g.ownedChildren id).map (g.preorderWithin limit) =
        (g.ownedChildren id).map (g.preorderWithin depth) :=
      List.map_congr_left fun child hchild => ih (h child hchild) (by omega)
    rw [preorderWithin, preorderWithin, List.flatMap_def, List.flatMap_def, hchildren]

/-- **The list of a tree** is its root and then the lists of the children's trees, from left to
right. -/
theorem OwnInv.preorder_eq (h : OwnInv g) {id : NodeId} (hid : id ∈ g) :
    g.preorder id = id :: (g.ownedChildren id).flatMap g.preorder := by
  obtain ⟨depth, hsize⟩ : ∃ m, g.size = m + 1 :=
    ⟨g.size - 1, by have := Nat.zero_lt_of_lt (mem_def.mp hid); omega⟩
  have hshallow : g.Shallow (depth + 1) id := hsize ▸ h.shallow hid
  have hchildren : (g.ownedChildren id).map (g.preorderWithin depth) =
      (g.ownedChildren id).map g.preorder :=
    List.map_congr_left fun child hchild =>
      (preorderWithin_eq depth (hshallow child hchild) (by omega)).symm
  rw [preorder, hsize, preorderWithin, List.flatMap_def, List.flatMap_def, hchildren]

/-- A tree consists of the nodes that its root is above. -/
theorem OwnInv.mem_preorderWithin (h : OwnInv g) (depth : Nat) : ∀ {root id : NodeId},
    g.Shallow depth root → (id ∈ g.preorderWithin depth root ↔ g.Above root id) := by
  induction depth with
  | zero => exact fun hs => absurd hs id
  | succ depth ih =>
    intro root id hs
    rw [preorderWithin, List.mem_cons, List.mem_flatMap, above_iff_owned]
    refine or_congr_right (exists_congr fun child => ?_)
    rw [h.mem_ownedChildren]
    exact and_congr_right fun ho => ih (hs child (h.mem_ownedChildren.mpr ho))

theorem OwnInv.nodup_preorderWithin (h : OwnInv g) (depth : Nat) : ∀ {root : NodeId},
    g.Shallow depth root → (g.preorderWithin depth root).Nodup := by
  induction depth with
  | zero => exact fun hs => absurd hs id
  | succ depth ih =>
    intro root hs
    have hmem : ∀ {child id : NodeId}, child ∈ g.ownedChildren root →
        (id ∈ g.preorderWithin depth child ↔ g.Above child id) :=
      fun hchild => h.mem_preorderWithin depth (hs _ hchild)
    refine List.nodup_cons.mpr ⟨fun hroot => ?_, List.nodup_flatMap.mpr ⟨?_, ?_⟩⟩
    · -- a child of the root would be above it
      obtain ⟨child, hchild, hin⟩ := List.mem_flatMap.mp hroot
      exact not_above_owner h.rooted child root (h.mem_ownedChildren.mp hchild)
        ((hmem hchild).mp hin)
    · exact fun child hchild => ih (hs child hchild)
    · refine (h.nodup_ownedChildren root).imp_of_mem fun {a b} ha hb hne id hin hin' => ?_
      exact h.siblings_apart (h.mem_ownedChildren.mp ha) (h.mem_ownedChildren.mp hb) hne
        ((hmem ha).mp hin) ((hmem hb).mp hin')

theorem OwnInv.mem_preorder (h : OwnInv g) {root : NodeId} (hroot : root ∈ g) {id : NodeId} :
    id ∈ g.preorder root ↔ g.Above root id :=
  h.mem_preorderWithin g.size (h.shallow hroot)

theorem OwnInv.nodup_preorder (h : OwnInv g) {root : NodeId} (hroot : root ∈ g) :
    (g.preorder root).Nodup :=
  h.nodup_preorderWithin g.size (h.shallow hroot)

/-- Every node of a tree is in the graph. -/
theorem OwnInv.mem_of_above (h : OwnInv g) {root id : NodeId} (hroot : root ∈ g)
    (habove : g.Above root id) : id ∈ g := by
  cases habove with
  | here => exact hroot
  | up hp _ => exact h.child_mem hp

theorem OwnInv.mem_of_mem_preorder (h : OwnInv g) {root id : NodeId} (hroot : root ∈ g)
    (hid : id ∈ g.preorder root) : id ∈ g :=
  h.mem_of_above hroot ((h.mem_preorder hroot).mp hid)

/-! ## Walks -/

/-- The function does at a node what the visitor does there, and then, if the visitor goes below,
what it does itself at the owned children one after the other. -/
def Follows {σ : Type} (g : Graph) (visitor : Visitor σ) (walk : NodeId → σ → σ) : Prop :=
  ∀ id node, g.node? id = some node → ∀ state,
    walk id state =
      if (visitor id node state).1 then
        (g.ownedChildren id).foldl (fun state child => walk child state) (visitor id node state).2
      else (visitor id node state).2

theorem OwnInv.visitWithin_eq_ok (h : OwnInv g) {σ : Type} {visitor : Visitor σ}
    {walk : NodeId → σ → σ} (hwalk : g.Follows visitor walk) (depth : Nat) :
    ∀ {limit : Nat} {id : NodeId} (state : σ), id ∈ g → g.Shallow depth id → depth ≤ limit →
      g.visitWithin visitor limit id state = .ok (walk id state) := by
  induction depth with
  | zero => exact fun _ _ hs => absurd hs id
  | succ depth ih =>
    intro limit id state hid hs hle
    obtain ⟨limit, rfl⟩ : ∃ m, limit = m + 1 := ⟨limit - 1, by omega⟩
    obtain ⟨node, hn⟩ := mem_iff_node?.mp hid
    -- the children one after the other
    have hchildren : ∀ (children : List NodeId) (state : σ),
        (∀ child ∈ children, child ∈ g.ownedChildren id) →
          children.foldlM (fun state child => g.visitWithin visitor limit child state) state =
            Except.ok (children.foldl (fun state child => walk child state) state) := by
      intro children
      induction children with
      | nil => exact fun _ _ => rfl
      | cons child rest ihrest =>
        intro state hall
        obtain ⟨hchild, hrest⟩ := List.forall_mem_cons.mp hall
        have hmem : child ∈ g := h.child_mem (h.mem_ownedChildren.mp hchild)
        rw [List.foldlM_cons, ih state hmem (hs child hchild) (by omega)]
        exact ihrest _ hrest
    rw [visitWithin, hn, hwalk id node hn state]
    dsimp only
    split
    next state' hvisit =>
      rw [hvisit, if_pos rfl, ← ownedChildren_of_node? hn]
      exact hchildren _ _ fun _ hchild => hchild
    next state' hvisit => rw [hvisit, if_neg Bool.false_ne_true]

/-- **A walk is what it does at each node**: it ends, and with what a function makes of the state
that follows the visitor node by node. -/
theorem OwnInv.visit_eq_ok (h : OwnInv g) {σ : Type} {visitor : Visitor σ} {walk : NodeId → σ → σ}
    (hwalk : g.Follows visitor walk) {root : NodeId} (hroot : root ∈ g) (state : σ) :
    g.visit visitor root state = .ok (walk root state) :=
  h.visitWithin_eq_ok hwalk g.size state hroot (h.shallow hroot) (Nat.le_succ _)

/-- A visitor that goes below every node. -/
def thorough {σ : Type} (step : NodeId → Node → σ → σ) : Visitor σ := fun id node state =>
  (true, step id node state)

/-- What a visitor does to its state at a node, if there is a node. -/
def stepAt {σ : Type} (g : Graph) (step : NodeId → Node → σ → σ) (state : σ) (id : NodeId) : σ :=
  match g.node? id with
  | some node => step id node state
  | none => state

/-- The list of a tree is gone through by its root and then by the lists of the children's trees. -/
theorem OwnInv.foldl_preorder (h : OwnInv g) {σ : Type} (step : σ → NodeId → σ) {id : NodeId}
    (hid : id ∈ g) (state : σ) : (g.preorder id).foldl step state =
      (g.ownedChildren id).foldl (fun state child => (g.preorder child).foldl step state)
        (step state id) := by
  rw [h.preorder_eq hid, List.foldl_cons, List.foldl_flatMap]

theorem OwnInv.follows_thorough (h : OwnInv g) {σ : Type} (step : NodeId → Node → σ → σ) :
    g.Follows (thorough step) fun id state => (g.preorder id).foldl (g.stepAt step) state := by
  intro id node hn state
  have hstep : g.stepAt step state id = step id node state := by rw [stepAt, hn]
  exact (h.foldl_preorder _ (mem_iff_node?.mpr ⟨node, hn⟩) state).trans (by rw [hstep]; rfl)

/-- A walk that goes below every node goes through the list of the tree. -/
theorem OwnInv.visit_thorough (h : OwnInv g) {σ : Type} (step : NodeId → Node → σ → σ)
    {root : NodeId} (hroot : root ∈ g) (state : σ) :
    g.visit (thorough step) root state = .ok ((g.preorder root).foldl (g.stepAt step) state) :=
  h.visit_eq_ok (h.follows_thorough step) hroot state

/-- A collection asks about the nodes of the list one after the other. -/
theorem OwnInv.collect_eq_foldl (h : OwnInv g) {σ : Type} {root : NodeId} (hroot : root ∈ g)
    (p : Search σ) (state : σ) :
    g.collect root p state =
      .ok (((g.preorder root).foldl (g.stepAt (inspect p)) ⟨[], state⟩).found.reverse,
        ((g.preorder root).foldl (g.stepAt (inspect p)) ⟨[], state⟩).state) := by
  have hvisit := h.visit_thorough (inspect p) hroot (⟨[], state⟩ : Findings σ)
  unfold thorough at hvisit
  rw [collect, hvisit]
  rfl

/-- The kind of the node satisfies the predicate. -/
def satisfies (g : Graph) (p : Kind Name → Bool) (id : NodeId) : Bool := (g.kind? id).any p

/-- A search with a predicate that has no memory. -/
def asking {σ : Type} (p : Kind Name → Bool) : Search σ := fun kind state => (p kind, state)

theorem foldl_inspect {σ : Type} (p : Kind Name → Bool) (ids : List NodeId) : ∀ (f : Findings σ),
    (∀ id ∈ ids, id ∈ g) →
      ids.foldl (g.stepAt (inspect (asking p))) f =
        ⟨(ids.filter (g.satisfies p)).reverse ++ f.found, f.state⟩ := by
  induction ids with
  | nil => exact fun _ _ => rfl
  | cons id rest ih =>
    intro f hall
    obtain ⟨hid, hrest⟩ := List.forall_mem_cons.mp hall
    obtain ⟨node, hn⟩ := mem_iff_node?.mp hid
    have hkind : g.satisfies p id = p node.kind := by
      rw [satisfies, kind?_of_node? hn, Option.any_some]
    rw [List.foldl_cons, stepAt, hn, ih _ hrest, List.filter_cons, hkind]
    cases hp : p node.kind with
    | true => simp [inspect, asking, hp]
    | false => simp [inspect, asking, hp]

theorem OwnInv.collect_eq_ok (h : OwnInv g) {σ : Type} {root : NodeId} (hroot : root ∈ g)
    (p : Kind Name → Bool) (state : σ) :
    g.collect root (asking p) state = .ok ((g.preorder root).filter (g.satisfies p), state) := by
  have hall : ∀ id ∈ g.preorder root, id ∈ g := fun _ hid => h.mem_of_mem_preorder hroot hid
  rw [h.collect_eq_foldl hroot, foldl_inspect p _ _ hall]
  simp

/-- What a collection finds in the tree of a root. -/
structure Enumeration (g : Graph) (root : NodeId) (p : Kind Name → Bool) (found : List NodeId) :
    Prop where
  /-- It finds what is wanted in the order of the tree. -/
  in_order : found = (g.preorder root).filter (g.satisfies p)
  /-- It finds nothing twice. -/
  once : found.Nodup
  /-- It finds the nodes of the wanted kinds from which the owners lead to the root. -/
  mem_iff : ∀ id, id ∈ found ↔ g.Above root id ∧ ∃ kind, g.kind? id = some kind ∧ p kind = true
  /-- If neither root is above the other, no other collection finds any of it. -/
  apart : ∀ other ∈ g, ¬ g.Above root other → ¬ g.Above other root →
    ∀ q found', g.collect other (asking q) () = .ok (found', ()) → found.Disjoint found'

theorem OwnInv.enumeration (h : OwnInv g) {root : NodeId} (hroot : root ∈ g)
    (p : Kind Name → Bool) :
    Enumeration g root p ((g.preorder root).filter (g.satisfies p)) := by
  refine ⟨rfl, (h.nodup_preorder hroot).filter _, fun id => ?_, ?_⟩
  · rw [List.mem_filter, h.mem_preorder hroot, satisfies, Option.any_eq_true]
  · intro other hother hnot hnot' q found' hfound' id hin hin'
    have hlist := h.collect_eq_ok hother q ()
    rw [hfound'] at hlist
    obtain rfl := congrArg Prod.fst (Except.ok.inj hlist)
    have habove := (h.mem_preorder hroot).mp (List.mem_filter.mp hin).1
    have habove' := (h.mem_preorder hother).mp (List.mem_filter.mp hin').1
    -- the way up from a common node would meet both roots
    rcases above_linear habove habove' with hab | hba
    · exact hnot hab
    · exact hnot' hba

/-- **A collection lists what is owned, near or far.** In a context that a program comes to, it ends
for every root and every predicate, whatever references there are, and what it finds are the nodes
of the wanted kinds in the tree of the root. The tree is listed in order: a node before what it
owns, and that from left to right. -/
theorem collect_enumerates {c : Context} (hc : Reachable c) {root : NodeId}
    (hroot : root ∈ c.graph) (p : Kind Name → Bool) :
    (∃ found, c.graph.collect root (asking p) () = .ok (found, ())
        ∧ Enumeration c.graph root p found)
      ∧ ∀ id ∈ c.graph, c.graph.preorder id =
          id :: (c.graph.ownedChildren id).flatMap c.graph.preorder := by
  have h := ownInv_reachable hc
  have hcollect := h.collect_eq_ok hroot p ()
  exact ⟨⟨_, hcollect, h.enumeration hroot p⟩, fun id hid => h.preorder_eq hid⟩

/-- The record owns its field, and the field the wrapper that replaced the old one. The wrapper
refers to the record. -/
theorem collect_enumerates_linkedRecord :
    let g := (runAll linkedRecord .fresh).graph
    Reachable (runAll linkedRecord .fresh) ∧ ⟨0⟩ ∈ g
      ∧ g.collect ⟨0⟩ (asking fun _ => true) () = .ok ([⟨0⟩, ⟨2⟩, ⟨3⟩], ())
      ∧ (∃ found, g.collect ⟨0⟩ (asking fun _ => true) () = .ok (found, ())
          ∧ Enumeration g ⟨0⟩ (fun _ => true) found)
      ∧ ∀ id ∈ g, g.preorder id = id :: (g.ownedChildren id).flatMap g.preorder := by
  have hc : Reachable (runAll linkedRecord .fresh) := leads_runAll linkedRecord (.refl _)
  have hroot : ⟨0⟩ ∈ (runAll linkedRecord .fresh).graph := by decide +kernel
  exact ⟨hc, hroot, by decide +kernel, collect_enumerates hc hroot _⟩

end SyntaxGraph.Graph
