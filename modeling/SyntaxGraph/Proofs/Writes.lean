import SyntaxGraph.Construction

/-!
# What a write changes

Every write is first described node by node: what a node of the graph after the
write is, in terms of the same node before it. The lemmas after that read off
the views that invariants speak about — kind, edges, owner, finished or not —
so that no invariant has to look into a write again.

Two facts recur. A write never changes the kind of a node that is there, and the
only node that an allocation adds has the id that was next.
-/

namespace SyntaxGraph.Graph

variable {g : Graph}

/-! ## Nodes that are there -/

theorem nextId_not_mem (g : Graph) : g.nextId ∉ g := by
  intro h
  exact Nat.lt_irrefl _ (mem_def.mp h)

theorem ne_nextId {id : NodeId} (h : id ∈ g) : id ≠ g.nextId := by
  intro he
  exact nextId_not_mem g (he ▸ h)

theorem node?_nextId (g : Graph) : g.node? g.nextId = none :=
  not_mem_iff_node?.mp (nextId_not_mem g)

theorem node?_empty (id : NodeId) : empty.node? id = none := rfl

theorem mem_of_edge {id : NodeId} {e : Edge} (h : e ∈ g.edges id) : id ∈ g := by
  rw [mem_iff_node?]
  cases hn : g.node? id with
  | none => simp [edges, hn] at h
  | some node => exact ⟨node, rfl⟩

theorem mem_of_isFrozen {id : NodeId} (h : g.isFrozen id = true) : id ∈ g := by
  rw [mem_iff_node?]
  cases hn : g.node? id with
  | none => simp [isFrozen, hn] at h
  | some node => exact ⟨node, rfl⟩

theorem mem_edges_iff {id : NodeId} {e : Edge} :
    e ∈ g.edges id ↔ ∃ index, g.edge? id index = some e :=
  List.mem_iff_getElem?

theorem mem_of_edge? {id : NodeId} {index : Nat} {e : Edge} (h : g.edge? id index = some e) :
    id ∈ g :=
  mem_of_edge (mem_edges_iff.mpr ⟨index, h⟩)

theorem edges_of_node? {id : NodeId} {node : Node} (h : g.node? id = some node) :
    g.edges id = node.children := by
  simp [edges, h]

theorem edge?_of_node? {id : NodeId} {node : Node} (h : g.node? id = some node) (index : Nat) :
    g.edge? id index = node.children[index]? := by
  rw [edge?, edges_of_node? h]

theorem kind?_of_node? {id : NodeId} {node : Node} (h : g.node? id = some node) :
    g.kind? id = some node.kind := by
  simp [kind?, h]

/-! ## Changing the owner of what an edge owns -/

theorem node?_setOwner (g : Graph) (e : Edge) (owner : Option NodeId) (id : NodeId) :
    (g.setOwner e owner).node? id = (g.node? id).map fun node =>
      if e = .owned id then { node with parent := owner } else node := by
  cases e with
  | owned child =>
    by_cases h : child = id
    · simp [setOwner, Edge.child?, setParent, node?_modify, h]
    · simp [setOwner, Edge.child?, setParent, node?_modify, h]
  | ref target => simp [setOwner, Edge.child?]

/-- Handing over what several edges own, one edge after the other, gives it all to the owner. -/
theorem node?_foldl_setOwner (owner : Option NodeId) (id : NodeId) (children : List Edge) :
    ∀ g : Graph, (children.foldl (fun h e => h.setOwner e owner) g).node? id =
      (g.node? id).map fun node =>
        if Edge.owned id ∈ children then { node with parent := owner } else node := by
  induction children with
  | nil => intro g; simp
  | cons e rest ih =>
    intro g
    rw [List.foldl_cons, ih, node?_setOwner, Option.map_map]
    congr 1
    funext node
    cases e with
    | owned child =>
      by_cases hc : child = id
      · by_cases hr : Edge.owned id ∈ rest <;> simp [hc, hr]
      · have hne : ¬ id = child := fun h => hc h.symm
        simp [hc, hne]
    | ref target => simp

theorem size_foldl_setOwner (owner : Option NodeId) (children : List Edge) :
    ∀ g : Graph, (children.foldl (fun h e => h.setOwner e owner) g).size = g.size := by
  induction children with
  | nil => intro g; rfl
  | cons e rest ih => intro g; rw [List.foldl_cons, ih, size_setOwner]

/-! ## The writes, node by node -/

theorem node?_begin (g : Graph) (kind : Kind Name) (span : Span) (id : NodeId) :
    (g.begin kind span).node? id =
      if id = g.nextId then some ⟨kind, span, [], none, false⟩ else g.node? id :=
  node?_push g _ id

theorem node?_addChild (g : Graph) (parent : NodeId) (e : Edge) (id : NodeId) :
    (g.addChild parent e).node? id = (g.node? id).map fun node =>
      { node with
        children := if id = parent then node.children ++ [e] else node.children
        parent := if e = .owned id then some parent else node.parent } := by
  rw [addChild, node?_modify, node?_setOwner]
  by_cases hp : parent = id
  · subst hp
    cases g.node? parent with
    | none => simp
    | some node => by_cases hc : e = .owned parent <;> simp [hc]
  · have hne : ¬ id = parent := fun h => hp h.symm
    cases g.node? id with
    | none => simp [hp]
    | some node => by_cases hc : e = .owned id <;> simp [hp, hne, hc]

theorem node?_finish (g : Graph) (id other : NodeId) :
    (g.finish id).node? other = (g.node? other).map fun node =>
      { node with frozen := if other = id then true else node.frozen } := by
  rw [finish, node?_modify]
  by_cases h : id = other
  · subst h
    simp
  · have hne : ¬ other = id := fun he => h he.symm
    simp [h, hne]

theorem node?_insert (g : Graph) (kind : Kind Name) (children : List Edge) (span : Span)
    (id : NodeId) :
    (g.insert kind children span).node? id =
      if id = g.nextId then some ⟨kind, span, children, none, true⟩
      else (g.node? id).map fun node =>
        { node with parent := if Edge.owned id ∈ children then some g.nextId else node.parent } := by
  have hnext : (children.foldl (fun h e => h.setOwner e (some g.nextId)) g).nextId = g.nextId := by
    rw [nextId, size_foldl_setOwner, nextId]
  rw [insert, node?_push, hnext, node?_foldl_setOwner]
  by_cases h : id = g.nextId
  · rw [if_pos h, if_pos h]
  · rw [if_neg h, if_neg h]
    congr 1
    funext node
    by_cases hc : Edge.owned id ∈ children <;> simp [hc]

theorem node?_setChild (g : Graph) (parent : NodeId) (index : Nat) (old new : Edge)
    (id : NodeId) :
    (g.setChild parent index old new).node? id = (g.node? id).map fun node =>
      { node with
        children := if id = parent then node.children.set index new else node.children
        parent :=
          if new = .owned id then some parent
          else if old = .owned id then none else node.parent } := by
  rw [setChild, node?_modify, node?_setOwner, node?_setOwner]
  cases g.node? id with
  | none => simp
  | some node =>
    by_cases hp : parent = id
    · by_cases hn : new = .owned id <;> by_cases ho : old = .owned id <;> simp [hp, hn, ho]
    · have hne : ¬ id = parent := fun h => hp h.symm
      by_cases hn : new = .owned id <;> by_cases ho : old = .owned id <;> simp [hp, hne, hn, ho]

/-! ## Which nodes there are afterwards -/

theorem size_begin (g : Graph) (kind : Kind Name) (span : Span) :
    (g.begin kind span).size = g.size + 1 := by
  rw [begin, size_push]

theorem size_insert (g : Graph) (kind : Kind Name) (children : List Edge) (span : Span) :
    (g.insert kind children span).size = g.size + 1 := by
  rw [insert, size_push, size_foldl_setOwner]

theorem HasRoom.mono {count more : Nat} (h : g.HasRoom more) (hle : count ≤ more) :
    g.HasRoom count :=
  Nat.le_trans (Nat.add_le_add_left hle g.size) h

/-- Where there is room for so many nodes and for no more, they fill the arena. -/
theorem HasRoom.size_eq {count : Nat} (h : g.HasRoom count) (hfull : ¬ g.HasRoom (count + 1)) :
    g.size + count = capacity :=
  Nat.le_antisymm h (Nat.le_of_lt_succ (Nat.lt_of_not_le hfull))

/-- A new node takes one place. -/
theorem hasRoom_begin {kind : Kind Name} {span : Span} {count : Nat} :
    (g.begin kind span).HasRoom count ↔ g.HasRoom (count + 1) := by
  rw [HasRoom, HasRoom, size_begin, Nat.add_assoc, Nat.add_comm 1]

theorem hasRoom_insert {kind : Kind Name} {children : List Edge} {span : Span} {count : Nat} :
    (g.insert kind children span).HasRoom count ↔ g.HasRoom (count + 1) := by
  rw [HasRoom, HasRoom, size_insert, Nat.add_assoc, Nat.add_comm 1]

theorem mem_begin {kind : Kind Name} {span : Span} {id : NodeId} (h : id ∈ g) :
    id ∈ g.begin kind span := by
  rw [mem_def] at *
  simp only [begin, size_push]
  omega

theorem mem_insert {kind : Kind Name} {children : List Edge} {span : Span} {id : NodeId} :
    id ∈ g.insert kind children span ↔ id ∈ g ∨ id = g.nextId := by
  rcases id with ⟨i⟩
  simp only [mem_def, insert, size_push, size_foldl_setOwner, nextId, NodeId.mk.injEq]
  omega

@[simp] theorem mem_addChild {parent : NodeId} {e : Edge} {id : NodeId} :
    id ∈ g.addChild parent e ↔ id ∈ g := by
  simp [mem_def, addChild]

@[simp] theorem mem_finish {id other : NodeId} : other ∈ g.finish id ↔ other ∈ g := by
  simp [mem_def, finish]

@[simp] theorem mem_setChild {parent : NodeId} {index : Nat} {old new : Edge} {id : NodeId} :
    id ∈ g.setChild parent index old new ↔ id ∈ g := by
  simp [mem_def, setChild]

/-! ## Kinds never change -/

theorem kind?_begin {kind : Kind Name} {span : Span} {id : NodeId} (h : id ∈ g) :
    (g.begin kind span).kind? id = g.kind? id := by
  rw [kind?, node?_begin, if_neg (ne_nextId h), kind?]

theorem kind?_insert {kind : Kind Name} {children : List Edge} {span : Span} {id : NodeId}
    (h : id ∈ g) : (g.insert kind children span).kind? id = g.kind? id := by
  rw [kind?, node?_insert, if_neg (ne_nextId h), Option.map_map, kind?]
  rfl

@[simp] theorem kind?_addChild (parent : NodeId) (e : Edge) (id : NodeId) :
    (g.addChild parent e).kind? id = g.kind? id := by
  rw [kind?, node?_addChild, Option.map_map, kind?]
  rfl

@[simp] theorem kind?_finish (id other : NodeId) : (g.finish id).kind? other = g.kind? other := by
  rw [kind?, node?_finish, Option.map_map, kind?]
  rfl

@[simp] theorem kind?_setChild (parent : NodeId) (index : Nat) (old new : Edge) (id : NodeId) :
    (g.setChild parent index old new).kind? id = g.kind? id := by
  rw [kind?, node?_setChild, Option.map_map, kind?]
  rfl

/-! ## Edges -/

@[simp] theorem edges_begin (kind : Kind Name) (span : Span) (id : NodeId) :
    (g.begin kind span).edges id = g.edges id := by
  rw [edges, node?_begin]
  by_cases h : id = g.nextId
  · simp [h, edges, node?_nextId]
  · simp [h, edges]

theorem edges_insert (kind : Kind Name) (children : List Edge) (span : Span) (id : NodeId) :
    (g.insert kind children span).edges id = if id = g.nextId then children else g.edges id := by
  rw [edges, node?_insert]
  by_cases h : id = g.nextId
  · simp [h]
  · simp [h, edges, Function.comp_def]

theorem edges_addChild {parent : NodeId} (h : parent ∈ g) (e : Edge) (id : NodeId) :
    (g.addChild parent e).edges id =
      if id = parent then g.edges parent ++ [e] else g.edges id := by
  obtain ⟨node, hn⟩ := mem_iff_node?.mp h
  rw [edges, node?_addChild]
  by_cases hid : id = parent
  · simp [hid, hn, edges]
  · simp [hid, edges, Function.comp_def]

@[simp] theorem edges_finish (id other : NodeId) : (g.finish id).edges other = g.edges other := by
  rw [edges, node?_finish, Option.map_map, edges]
  rfl

theorem edges_setChild (parent : NodeId) (index : Nat) (old new : Edge) (id : NodeId) :
    (g.setChild parent index old new).edges id =
      if id = parent then (g.edges parent).set index new else g.edges id := by
  rw [edges, node?_setChild]
  by_cases hid : id = parent
  · subst hid
    cases hn : g.node? id <;> simp [hn, edges]
  · simp [hid, edges, Function.comp_def]

/-- Replacing a child changes one slot. -/
theorem edge?_setChild {parent : NodeId} {index : Nat} {old : Edge}
    (h : g.edge? parent index = some old) (new : Edge) (id : NodeId) (i : Nat) :
    (g.setChild parent index old new).edge? id i =
      if id = parent ∧ i = index then some new else g.edge? id i := by
  have hlt : index < (g.edges parent).length := (List.getElem?_eq_some_iff.mp h).1
  rw [edge?, edges_setChild, edge?]
  by_cases hid : id = parent
  · subst hid
    rw [if_pos rfl, List.getElem?_set]
    by_cases hi : index = i
    · simp [← hi, hlt]
    · simp [hi, Ne.symm hi]
  · simp [hid]

/-! ## Owners -/

@[simp] theorem parent?_begin (kind : Kind Name) (span : Span) (id : NodeId) :
    (g.begin kind span).parent? id = g.parent? id := by
  rw [parent?, node?_begin]
  by_cases h : id = g.nextId
  · simp [h, parent?, node?_nextId]
  · simp [h, parent?]

theorem parent?_insert (kind : Kind Name) {children : List Edge} (span : Span)
    (h : ∀ e ∈ children, e.target ∈ g) (id : NodeId) :
    (g.insert kind children span).parent? id =
      if Edge.owned id ∈ children then some g.nextId else g.parent? id := by
  rw [parent?, node?_insert]
  by_cases hc : Edge.owned id ∈ children
  · have hid : id ∈ g := h _ hc
    obtain ⟨node, hn⟩ := mem_iff_node?.mp hid
    rw [if_neg (ne_nextId hid)]
    simp [hn, hc]
  · by_cases hid : id = g.nextId
    · subst hid
      simp [hc, parent?, node?_nextId]
    · rw [if_neg hid, if_neg hc, parent?]
      cases g.node? id <;> simp [hc]

theorem parent?_addChild (parent : NodeId) {e : Edge} (h : e.target ∈ g) (id : NodeId) :
    (g.addChild parent e).parent? id =
      if e = .owned id then some parent else g.parent? id := by
  rw [parent?, node?_addChild, parent?]
  cases hn : g.node? id with
  | some node => simp
  | none =>
    have hne : e ≠ .owned id := by
      rintro rfl
      exact not_mem_iff_node?.mpr hn h
    simp [hne]

@[simp] theorem parent?_finish (id other : NodeId) :
    (g.finish id).parent? other = g.parent? other := by
  rw [parent?, node?_finish, parent?]
  cases g.node? other <;> rfl

theorem parent?_setChild (parent : NodeId) (index : Nat) (old : Edge) {new : Edge}
    (h : new.target ∈ g) (id : NodeId) :
    (g.setChild parent index old new).parent? id =
      if new = .owned id then some parent
      else if old = .owned id then none else g.parent? id := by
  rw [parent?, node?_setChild, parent?]
  cases hn : g.node? id with
  | some node => simp
  | none =>
    have hne : new ≠ .owned id := by
      rintro rfl
      exact not_mem_iff_node?.mpr hn h
    simp [hne]

/-! ## Finished nodes -/

@[simp] theorem isFrozen_begin (kind : Kind Name) (span : Span) (id : NodeId) :
    (g.begin kind span).isFrozen id = g.isFrozen id := by
  rw [isFrozen, node?_begin]
  by_cases h : id = g.nextId
  · simp [h, isFrozen, node?_nextId]
  · simp [h, isFrozen]

theorem isFrozen_insert (kind : Kind Name) (children : List Edge) (span : Span) (id : NodeId) :
    (g.insert kind children span).isFrozen id = (id = g.nextId || g.isFrozen id) := by
  rw [isFrozen, node?_insert]
  by_cases h : id = g.nextId
  · simp [h]
  · simp [h, isFrozen, Function.comp_def]

@[simp] theorem isFrozen_addChild (parent : NodeId) (e : Edge) (id : NodeId) :
    (g.addChild parent e).isFrozen id = g.isFrozen id := by
  rw [isFrozen, node?_addChild, Option.map_map, isFrozen]
  rfl

theorem isFrozen_finish {id : NodeId} (h : id ∈ g) (other : NodeId) :
    (g.finish id).isFrozen other = (other = id || g.isFrozen other) := by
  obtain ⟨node, hn⟩ := mem_iff_node?.mp h
  rw [isFrozen, node?_finish]
  by_cases hid : other = id
  · simp [hid, hn]
  · simp [hid, isFrozen]

@[simp] theorem isFrozen_setChild (parent : NodeId) (index : Nat) (old new : Edge) (id : NodeId) :
    (g.setChild parent index old new).isFrozen id = g.isFrozen id := by
  rw [isFrozen, node?_setChild, Option.map_map, isFrozen]
  rfl

end SyntaxGraph.Graph
