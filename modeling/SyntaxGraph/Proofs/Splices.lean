import SyntaxGraph.Proofs.Preorder

/-!
# A replacement splices trees

The list of a tree is made of blocks: after a node comes, for each of its slots,
the list of the tree that the slot owns. A replacement exchanges one block. In the
list of every tree that the slot is in, what stood in its place is taken out, and
what the new edge owned until then is put in; the lists of all other trees are what
they were.

That this can be said of all trees at once is due to what is checked before. What
the new edge owns is not above the slot, so that its own tree has no part in the
change, and nothing owns it, so that no other tree loses it. What is taken out
becomes a tree with a root of its own. The trees of all roots list every node once,
before and after.
-/

namespace SyntaxGraph.Graph

variable {g g' : Graph}

/-! ## Blocks -/

/-- What a slot with the edge contributes to the list of a tree. -/
def block (g : Graph) : Edge → List NodeId
  | .owned child => g.preorder child
  | .ref _ => []

/-- The list of a node's tree as far as the block of one slot. -/
def upTo (g : Graph) (parent : NodeId) (index : Nat) : List NodeId :=
  parent :: ((g.edges parent).take index).flatMap g.block

/-- The list of a node's tree from where the block of one slot ends. -/
def behind (g : Graph) (parent : NodeId) (index : Nat) : List NodeId :=
  ((g.edges parent).drop (index + 1)).flatMap g.block

theorem flatMap_block (g : Graph) (edges : List Edge) :
    edges.flatMap g.block = (edges.filterMap Edge.child?).flatMap g.preorder := by
  induction edges with
  | nil => rfl
  | cons e rest ih => cases e <;> simp [List.filterMap_cons, block, Edge.child?, ih]

theorem OwnInv.preorder_eq_blocks (h : OwnInv g) {id : NodeId} (hid : id ∈ g) :
    g.preorder id = id :: (g.edges id).flatMap g.block := by
  rw [h.preorder_eq hid, flatMap_block, ownedChildren]

/-- The blocks of a node whose slot holds the edge. -/
theorem flatMap_block_set (g : Graph) {edges : List Edge} {index : Nat} (hlt : index < edges.length)
    (e : Edge) :
    (edges.set index e).flatMap g.block =
      (edges.take index).flatMap g.block ++ g.block e ++
        (edges.drop (index + 1)).flatMap g.block := by
  rw [List.set_eq_take_append_cons_drop, if_pos hlt, List.flatMap_append, List.flatMap_cons,
    List.append_assoc]

/-- The list of a tree falls into the block of one of the root's slots, and what is around it. -/
theorem OwnInv.preorder_at_slot (h : OwnInv g) {parent : NodeId} {index : Nat} {e : Edge}
    (hslot : g.edge? parent index = some e) :
    g.preorder parent = g.upTo parent index ++ g.block e ++ g.behind parent index := by
  obtain ⟨hlt, hget⟩ := List.getElem?_eq_some_iff.mp hslot
  have hset : (g.edges parent).set index e = g.edges parent := by
    rw [← hget, List.set_getElem_self]
  rw [h.preorder_eq_blocks (mem_of_edge? hslot), ← hset, flatMap_block_set g hlt, upTo, behind,
    List.cons_append, List.cons_append]

/-! ## One replacement -/

/-- The graphs before and after one edge took the place of another. -/
structure Replaced (g g' : Graph) (parent : NodeId) (index : Nat) (old new : Edge) : Prop where
  before : OwnInv g
  after : OwnInv g'
  /-- The nodes are the same. -/
  mem_iff : ∀ id, id ∈ g' ↔ id ∈ g
  /-- The slot held the old edge. -/
  slot : g.edge? parent index = some old
  /-- It holds the new one, and every other slot holds what it held. -/
  edges : ∀ id, g'.edges id = if id = parent then (g.edges parent).set index new else g.edges id
  /-- What comes to be owned is a node, and the slot is not in its tree. -/
  adopted : ∀ child, new = .owned child → child ∈ g ∧ ¬ g.Above child parent

theorem replaced_setChild (h : OwnInv g) {parent : NodeId} {index : Nat} {old new : Edge}
    (hcheck : g.checkReplace parent index new = .ok old) (hne : old ≠ new) :
    Replaced g (g.setChild parent index old new) parent index old new where
  before := h
  after := ownInv_setChild h hcheck hne
  mem_iff _ := mem_setChild
  slot := edge?_of_checkReplace hcheck
  edges := edges_setChild parent index old new
  adopted child hchild := by
    obtain ⟨_, _, _, hnew⟩ := checkReplace_eq_ok.mp hcheck
    obtain ⟨_, hadopt, _⟩ := hnew hne
    exact ⟨(hadopt child hchild).1.mem, not_above_of_isAbove (hadopt child hchild).2⟩

namespace Replaced

variable {parent : NodeId} {index : Nat} {old new : Edge}

theorem ownedChildren_of_ne (h : Replaced g g' parent index old new) {id : NodeId}
    (hne : id ≠ parent) : g'.ownedChildren id = g.ownedChildren id := by
  rw [ownedChildren, h.edges, if_neg hne, ownedChildren]

/-- What the slot is not in stays as it is, down to any depth. -/
theorem preorder_of_shallow (h : Replaced g g' parent index old new) (depth : Nat) :
    ∀ {root : NodeId}, g.Shallow depth root → root ∈ g → ¬ g.Above root parent →
      g'.preorder root = g.preorder root := by
  induction depth with
  | zero => exact fun hs => absurd hs id
  | succ depth ih =>
    intro root hs hroot hnot
    have hne : root ≠ parent := fun heq => hnot (heq ▸ .here root)
    rw [h.after.preorder_eq ((h.mem_iff root).mpr hroot), h.ownedChildren_of_ne hne,
      h.before.preorder_eq hroot]
    refine congrArg (root :: ·) (List.flatMap_congr fun child hchild => ?_)
    have ho : g.Owns root child := h.before.mem_ownedChildren.mp hchild
    exact ih (hs child hchild) (h.before.child_mem ho) fun habove => hnot (above_owner habove ho)

/-- **A tree that the slot is not in** has the list that it had. -/
theorem preorder_of_not_above (h : Replaced g g' parent index old new) {root : NodeId}
    (hroot : root ∈ g) (hnot : ¬ g.Above root parent) : g'.preorder root = g.preorder root :=
  h.preorder_of_shallow g.size (h.before.shallow hroot) hroot hnot

/-- No edge of the owner leads to a tree that the slot is in. -/
theorem block_of_mem (h : Replaced g g' parent index old new) {e : Edge}
    (he : e ∈ g.edges parent) : g'.block e = g.block e := by
  cases e with
  | ref target => rfl
  | owned child =>
    have ho : g.Owns parent child := (h.before.owner_iff parent child).mpr he
    exact h.preorder_of_not_above (h.before.child_mem ho)
      (not_above_owner h.before.rooted child parent ho)

theorem block_new (h : Replaced g g' parent index old new) : g'.block new = g.block new := by
  cases hnew : new with
  | ref target => rfl
  | owned child =>
    obtain ⟨hchild, hnot⟩ := h.adopted child hnew
    exact h.preorder_of_not_above hchild hnot

/-- The list of the tree whose root has the slot. -/
theorem preorder_parent (h : Replaced g g' parent index old new) :
    g'.preorder parent = g.upTo parent index ++ g.block new ++ g.behind parent index := by
  have hlt : index < (g.edges parent).length := (List.getElem?_eq_some_iff.mp h.slot).1
  have hparent : parent ∈ g' := (h.mem_iff parent).mpr (mem_of_edge? h.slot)
  have hblocks : ∀ {edges : List Edge}, (∀ e ∈ edges, e ∈ g.edges parent) →
      edges.flatMap g'.block = edges.flatMap g.block :=
    fun hsub => List.flatMap_congr fun e he => h.block_of_mem (hsub e he)
  rw [h.after.preorder_eq_blocks hparent, h.edges, if_pos rfl, flatMap_block_set g' hlt,
    h.block_new, hblocks fun e he => List.mem_of_mem_take he,
    hblocks fun e he => List.mem_of_mem_drop he, upTo, behind, List.cons_append, List.cons_append]

end Replaced

/-! ## All trees that the slot is in -/

/-- The lists of a tree before and after agree up to the block of the slot and from there on. -/
def Spliced (g g' : Graph) (parent : NodeId) (index : Nat) (old new : Edge) (root : NodeId) :
    Prop :=
  ∃ earlier later,
    g.preorder root =
        (earlier ++ g.upTo parent index) ++ g.block old ++ (g.behind parent index ++ later)
      ∧ g'.preorder root =
        (earlier ++ g.upTo parent index) ++ g.block new ++ (g.behind parent index ++ later)

namespace Replaced

variable {parent : NodeId} {index : Nat} {old new : Edge}

theorem spliced_parent (h : Replaced g g' parent index old new) :
    Spliced g g' parent index old new parent := by
  refine ⟨[], [], ?_, ?_⟩
  · simpa using h.before.preorder_at_slot h.slot
  · simpa using h.preorder_parent

/-- What happens to the tree of a child happens to the tree of its owner: the trees of the other
children stay as they are. -/
theorem spliced_owner (h : Replaced g g' parent index old new) {owner child : NodeId}
    (ho : g.Owns owner child) (habove : g.Above child parent)
    (hs : Spliced g g' parent index old new child) :
    Spliced g g' parent index old new owner := by
  have hne : owner ≠ parent := by
    rintro rfl
    exact not_above_owner h.before.rooted child owner ho habove
  have howner : owner ∈ g := h.before.owner_mem ho
  have hother : ∀ sibling ∈ g.ownedChildren owner, sibling ≠ child →
      g'.preorder sibling = g.preorder sibling := by
    intro sibling hsibling hdiff
    have ho' : g.Owns owner sibling := h.before.mem_ownedChildren.mp hsibling
    exact h.preorder_of_not_above (h.before.child_mem ho')
      (h.before.siblings_apart ho ho' hdiff.symm habove)
  -- the child is listed once, so that those to its left and right are others
  obtain ⟨left, right, hchildren⟩ := List.append_of_mem (h.before.mem_ownedChildren.mpr ho)
  have hnodup := h.before.nodup_ownedChildren owner
  rw [hchildren] at hother hnodup
  obtain ⟨_, hright, hleft⟩ := List.nodup_append.mp hnodup
  have hleft' : left.flatMap g'.preorder = left.flatMap g.preorder :=
    List.flatMap_congr fun sibling hs =>
      hother sibling (by simp [hs]) (hleft sibling hs child (by simp))
  have hright' : right.flatMap g'.preorder = right.flatMap g.preorder :=
    List.flatMap_congr fun sibling hs =>
      hother sibling (by simp [hs]) fun heq => (List.nodup_cons.mp hright).1 (heq ▸ hs)
  obtain ⟨earlier, later, hbefore, hafter⟩ := hs
  refine ⟨owner :: (left.flatMap g.preorder ++ earlier), later ++ right.flatMap g.preorder, ?_, ?_⟩
  · rw [h.before.preorder_eq howner, hchildren, List.flatMap_append, List.flatMap_cons, hbefore]
    simp
  · rw [h.after.preorder_eq ((h.mem_iff owner).mpr howner), h.ownedChildren_of_ne hne, hchildren,
      List.flatMap_append, List.flatMap_cons, hleft', hright', hafter]
    simp

/-- So it happens to the trees of all nodes on the way up. -/
theorem spliced_of_above (h : Replaced g g' parent index old new) {root start : NodeId}
    (hup : g.Above root start) : g.Above start parent →
      Spliced g g' parent index old new start → Spliced g g' parent index old new root := by
  induction hup with
  | here => exact fun _ hs => hs
  | up ho _ ih => exact fun habove hs => ih (above_owner habove ho) (h.spliced_owner ho habove hs)

end Replaced

/-! ## Every node is in the tree of one root -/

/-- The nodes that nothing owns. -/
def roots (g : Graph) : List NodeId := g.ids.filter fun id => (g.parent? id).isNone

theorem mem_roots {id : NodeId} : id ∈ g.roots ↔ id ∈ g ∧ g.parent? id = none := by
  rw [roots, List.mem_filter, mem_ids, Option.isNone_iff_eq_none]

/-- The way up from a node ends at a root. -/
theorem OwnInv.exists_root (h : OwnInv g) (id : NodeId) : id ∈ g →
    ∃ root ∈ g.roots, g.Above root id := by
  induction id using h.rooted.induction with
  | _ id ih =>
    intro hid
    cases hp : g.parent? id with
    | none => exact ⟨id, mem_roots.mpr ⟨hid, hp⟩, .here id⟩
    | some owner =>
      obtain ⟨root, hroot, habove⟩ := ih owner hp (h.owner_mem hp)
      exact ⟨root, hroot, .up hp habove⟩

/-- Only a root itself is above it. -/
theorem eq_of_above_unowned {a root : NodeId} (hp : g.parent? root = none)
    (habove : g.Above a root) : a = root := by
  cases habove with
  | here => rfl
  | up ho _ =>
    rw [hp] at ho
    exact absurd ho (by simp)

/-- **The trees of the roots list every node once.** -/
theorem OwnInv.flatMap_roots_perm (h : OwnInv g) : (g.roots.flatMap g.preorder).Perm g.ids := by
  have hmem : ∀ {root id : NodeId}, root ∈ g.roots → (id ∈ g.preorder root ↔ g.Above root id) :=
    fun hroot => h.mem_preorder (mem_roots.mp hroot).1
  have hnodup : (g.roots.flatMap g.preorder).Nodup := by
    refine List.nodup_flatMap.mpr ⟨fun root hroot => h.nodup_preorder (mem_roots.mp hroot).1, ?_⟩
    refine ((nodup_ids g).filter _).imp_of_mem fun {a b} ha hb hne id hin hin' => hne ?_
    -- of two roots above a node one would be above the other
    rcases above_linear ((hmem ha).mp hin) ((hmem hb).mp hin') with hab | hba
    · exact eq_of_above_unowned (mem_roots.mp hb).2 hab
    · exact (eq_of_above_unowned (mem_roots.mp ha).2 hba).symm
  refine (List.perm_ext_iff_of_nodup hnodup (nodup_ids g)).mpr fun id => ?_
  rw [List.mem_flatMap, mem_ids]
  constructor
  · rintro ⟨root, hroot, hin⟩
    exact h.mem_of_mem_preorder (mem_roots.mp hroot).1 hin
  · intro hid
    obtain ⟨root, hroot, habove⟩ := h.exists_root id hid
    exact ⟨root, hroot, (hmem hroot).mpr habove⟩

/-! ## The tree that is taken out -/

/-- Of what the slot owned, only the root changes: it loses its owner. -/
theorem OwnInv.node?_setChild_detached (h : OwnInv g) {parent child : NodeId} {index : Nat}
    {new : Edge} (hcheck : g.checkReplace parent index new = .ok (.owned child))
    (hne : .owned child ≠ new) {id : NodeId} (habove : g.Above child id) :
    (g.setChild parent index (.owned child) new).node? id = (g.node? id).map fun node =>
      if id = child then { node with parent := none } else node := by
  have hslot : g.edge? parent index = some (.owned child) := edge?_of_checkReplace hcheck
  obtain ⟨_, _, _, hnew⟩ := checkReplace_eq_ok.mp hcheck
  obtain ⟨_, hadopt, _⟩ := hnew hne
  have hparent : id ≠ parent := by
    rintro rfl
    exact not_above_owner h.rooted child id (h.owns_of_edge? hslot) habove
  -- what is adopted is owned by nothing, so it can only be the root of the tree
  have hadopted : new ≠ .owned id := by
    intro hid
    obtain rfl := eq_of_above_unowned (hadopt id hid).1.unowned habove
    exact hne hid.symm
  rw [node?_setChild]
  refine congrArg (Option.map · (g.node? id)) (funext fun node => ?_)
  rw [if_neg hparent, if_neg hadopted]
  by_cases hc : id = child
  · simp [hc]
  · simp [hc, Ne.symm hc]

/-! ## What a replacement does to the trees -/

/-- What a replacement does to the trees of a graph. -/
structure Splices (g g' : Graph) (parent : NodeId) (index : Nat) (old new : Edge) : Prop where
  /-- The lists are what a collection of all nodes finds, before and after. -/
  collected : ∀ root ∈ g, g.collect root (asking fun _ => true) () = .ok (g.preorder root, ())
    ∧ g'.collect root (asking fun _ => true) () = .ok (g'.preorder root, ())
  /-- Where the slot is in a tree, the block of the old edge gives way to that of the new one. -/
  spliced : ∀ root ∈ g, parent ∈ g.preorder root → Spliced g g' parent index old new root
  /-- Where it is not, the list is the same. -/
  unchanged : ∀ root ∈ g, parent ∉ g.preorder root → g'.preorder root = g.preorder root
  /-- The tree that the slot owned is still whole, and nothing owns its root. Below the root, its
  nodes are what they were. -/
  detached : ∀ child, old = .owned child →
    g'.preorder child = g.preorder child ∧ g'.parent? child = none
      ∧ ∀ id ∈ g.preorder child,
        g'.node? id = (g.node? id).map fun node =>
          if id = child then { node with parent := none } else node
  /-- The trees of the roots list every node once, before and after. -/
  whole : (g.roots.flatMap g.preorder).Perm g.ids ∧ (g'.roots.flatMap g'.preorder).Perm g.ids

theorem OwnInv.collect_all (h : OwnInv g) {root : NodeId} (hroot : root ∈ g) :
    g.collect root (asking fun _ => true) () = .ok (g.preorder root, ()) := by
  have hall : ∀ id ∈ g.preorder root, g.satisfies (fun _ => true) id = true := by
    intro id hid
    obtain ⟨node, hn⟩ := mem_iff_node?.mp (h.mem_of_mem_preorder hroot hid)
    rw [satisfies, kind?_of_node? hn, Option.any_some]
  rw [h.collect_eq_ok hroot, List.filter_eq_self.mpr hall]

theorem OwnInv.splices (h : OwnInv g) {parent : NodeId} {index : Nat} {old new : Edge}
    (hcheck : g.checkReplace parent index new = .ok old) (hne : old ≠ new) :
    Splices g (g.setChild parent index old new) parent index old new := by
  have hr := replaced_setChild h hcheck hne
  refine ⟨fun root hroot => ⟨h.collect_all hroot, ?_⟩, ?spliced, ?unchanged, ?detached,
    h.flatMap_roots_perm, ?whole⟩
  · exact hr.after.collect_all ((hr.mem_iff root).mpr hroot)
  case spliced =>
    intro root hroot hin
    have habove : g.Above root parent := (h.mem_preorder hroot).mp hin
    exact hr.spliced_of_above habove (.here parent) hr.spliced_parent
  case unchanged =>
    intro root hroot hnot
    exact hr.preorder_of_not_above hroot fun habove => hnot ((h.mem_preorder hroot).mpr habove)
  case detached =>
    rintro child rfl
    have ho : g.Owns parent child := h.owns_of_edge? hr.slot
    have hchild : child ∈ g := h.child_mem ho
    have hnode := @node?_setChild_detached g h parent child index new hcheck hne
    refine ⟨hr.preorder_of_not_above hchild (not_above_owner h.rooted child parent ho), ?_, ?_⟩
    · rw [parent?, hnode (.here child)]
      cases g.node? child <;> simp
    · exact fun id hid => hnode ((h.mem_preorder hchild).mp hid)
  case whole =>
    have hids : (g.setChild parent index old new).ids = g.ids := by simp [ids, setChild]
    exact hids ▸ hr.after.flatMap_roots_perm

/-- **A replacement splices trees.** Whatever program has come to the context, if a child is
replaced by another edge, then in the list of every tree that the slot is in, the tree that the slot
owned gives way to the tree that the new edge owned before; a reference stands for no nodes. All
other trees keep their lists. -/
theorem replacement_splices {c c' : Context} (hc : Reachable c) {parent : NodeId} {index : Nat}
    {old new : Edge}
    (hrun : (Command.replace parent index new).run c = .ok (.replaced old) c') (hne : old ≠ new) :
    Splices c.graph c'.graph parent index old new := by
  cases hcheck : c.graph.checkReplace parent index new with
  | error cause =>
    rw [Command.run_replace_of_error hcheck] at hrun
    exact absurd hrun (by simp)
  | ok current =>
    rw [Command.run_replace_of_ok hcheck] at hrun
    obtain ⟨hreply, rfl⟩ := EStateM.Result.ok.inj hrun
    obtain rfl := Reply.replaced.inj hreply
    simpa only [if_neg hne] using (ownInv_reachable hc).splices hcheck hne

/-- The sample record, and a wrapper around a record of its own. -/
def recordAndInner : List Command := linkedRecord ++ [
  .make (.begin (.type .struct)) .dummy,
  .freeze ⟨4⟩,
  .make (.build (.node (.qualifiedType .none) [.owned ⟨4⟩])) .dummy]

/-- In the tree of the record, the wrapper of its field gives way to one that owns a record, or to
nothing if the slot is made to refer to the wrapper that it owned. -/
theorem replacement_splices_recordAndInner :
    let c := runAll recordAndInner .fresh
    Reachable c ∧ c.graph.preorder ⟨0⟩ = [⟨0⟩, ⟨2⟩, ⟨3⟩]
      ∧ (∃ c', (Command.replace ⟨2⟩ 0 (.owned ⟨5⟩)).run c = .ok (.replaced (.owned ⟨3⟩)) c'
        ∧ c'.graph.preorder ⟨0⟩ = [⟨0⟩, ⟨2⟩, ⟨5⟩, ⟨4⟩] ∧ c'.graph.roots = [⟨0⟩, ⟨1⟩, ⟨3⟩]
        ∧ Splices c.graph c'.graph ⟨2⟩ 0 (.owned ⟨3⟩) (.owned ⟨5⟩))
      ∧ ∃ c', (Command.replace ⟨2⟩ 0 (.ref ⟨3⟩)).run c = .ok (.replaced (.owned ⟨3⟩)) c'
        ∧ c'.graph.preorder ⟨0⟩ = [⟨0⟩, ⟨2⟩] ∧ c'.graph.roots = [⟨0⟩, ⟨1⟩, ⟨3⟩, ⟨5⟩]
        ∧ Splices c.graph c'.graph ⟨2⟩ 0 (.owned ⟨3⟩) (.ref ⟨3⟩) := by
  have hc : Reachable (runAll recordAndInner .fresh) := leads_runAll recordAndInner (.refl _)
  have howned : (runAll recordAndInner .fresh).graph.checkReplace ⟨2⟩ 0 (.owned ⟨5⟩) =
      .ok (.owned ⟨3⟩) := by decide +kernel
  have href : (runAll recordAndInner .fresh).graph.checkReplace ⟨2⟩ 0 (.ref ⟨3⟩) =
      .ok (.owned ⟨3⟩) := by decide +kernel
  refine ⟨hc, by decide +kernel, ⟨_, Command.run_replace_of_ok howned, by decide +kernel,
    by decide +kernel, ?_⟩, ⟨_, Command.run_replace_of_ok href, by decide +kernel,
    by decide +kernel, ?_⟩⟩
  · exact replacement_splices hc (Command.run_replace_of_ok howned) (by decide)
  · exact replacement_splices hc (Command.run_replace_of_ok href) (by decide)

end SyntaxGraph.Graph
