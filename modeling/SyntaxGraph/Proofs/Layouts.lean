import SyntaxGraph.Proofs.Reachable

/-!
# Children fit their slots

A layout is looked at in bits and pieces. Adding a child asks for a slot and says
nothing of how many children there will be; finishing a node counts the children
and does not look at them; a replacement looks at one slot and does not count.
Together that is enough: at no time is a child in a slot that is not its own, and
the children of a finished node are as many as its kind accepts.

A change is judged by what is new after it. New edges were checked against their
slots, and a node that comes to be finished was counted. All else was there
before, since a node never changes its kind and a finished one never the number
of its children.
-/

namespace SyntaxGraph

/-! ## Slots and numbers of children -/

/-- **There is a slot exactly where a finished node may have a child.** -/
theorem Layout.slot_isSome_iff {l : Layout} {index : Nat} :
    (l.slot index).isSome = true ↔ ∃ count, l.acceptsLength count = true ∧ index < count := by
  obtain ⟨fixed, tail⟩ := l
  have hfixed : fixed[index]? = none ↔ fixed.length ≤ index := List.getElem?_eq_none_iff
  unfold Layout.slot Layout.acceptsLength
  cases hslot : fixed[index]? with
  | some category =>
    have hlt : index < fixed.length := (List.getElem?_eq_some_iff.mp hslot).1
    -- the fixed slots are there whatever the tail is
    refine ⟨fun _ => ⟨fixed.length, ?_, hlt⟩, fun _ => rfl⟩
    cases tail <;> simp
  | none =>
    have hle := hfixed.mp hslot
    cases tail with
    | none => simpa using hle
    | optional category =>
      by_cases hi : index = fixed.length
      · simp [hi]
      · simp only [hi, if_false]
        refine ⟨fun h => absurd h (by simp), ?_⟩
        rintro ⟨count, hcount, hlt⟩
        have : count = fixed.length ∨ count = fixed.length + 1 := by simpa using hcount
        omega
    | many category => simpa using ⟨index + 1, by omega, by omega⟩

theorem Layout.exists_acceptsLength (l : Layout) : ∃ count, l.acceptsLength count = true := by
  refine ⟨l.fixed.length, ?_⟩
  obtain ⟨fixed, tail⟩ := l
  cases tail <;> simp [acceptsLength]

namespace Graph

variable {g g' : Graph}

/-! ## The invariant -/

/-- What every change keeps of layouts. -/
structure LaidOut (g : Graph) : Prop where
  /-- Children fit their slots. -/
  fits : ∀ id kind, g.kind? id = some kind → ∀ index e, g.edge? id index = some e →
    g.Fits kind index e.target
  /-- A finished node has a number of children that its kind accepts. -/
  counted : ∀ id kind, g.kind? id = some kind → g.isFrozen id = true →
    kind.layout.acceptsLength (g.edges id).length = true

theorem laidOut_empty : LaidOut empty where
  fits id kind hkind := by simp [kind?, node?_empty] at hkind
  counted id kind hkind := by simp [kind?, node?_empty] at hkind

theorem Fits.of_kind? {kind : Kind Name} {index : Nat} {id : NodeId} (h : g.Fits kind index id)
    (hkind : ∀ other ∈ g, g'.kind? other = g.kind? other) : g'.Fits kind index id := by
  obtain ⟨node, hn, hslot⟩ := h
  have hk := hkind id (mem_iff_node?.mpr ⟨node, hn⟩)
  rw [kind?, kind?, hn, Option.map_some] at hk
  obtain ⟨node', hn', hsame⟩ := Option.map_eq_some_iff.mp hk
  exact ⟨node', hn', by rw [hslot, Node.category, Node.category, hsame]⟩

/-- A change keeps to the layouts if edges that are new fit their slots and nodes that are newly
finished, or have another number of children, have been counted. -/
theorem LaidOut.of_new (h : LaidOut g) (hkind : ∀ id ∈ g, g'.kind? id = g.kind? id)
    (hedge : ∀ id index e, g'.edge? id index = some e → g.edge? id index = some e ∨
      ∀ kind, g'.kind? id = some kind → g.Fits kind index e.target)
    (hcount : ∀ id, g'.isFrozen id = true →
      g.isFrozen id = true ∧ (g'.edges id).length = (g.edges id).length ∨
      ∀ kind, g'.kind? id = some kind → kind.layout.acceptsLength (g'.edges id).length = true) :
    LaidOut g' where
  fits id kind hk index e he := by
    rcases hedge id index e he with hold | hnew
    · have hid : id ∈ g := mem_of_edge? hold
      rw [hkind id hid] at hk
      exact (h.fits id kind hk index e hold).of_kind? hkind
    · exact (hnew kind hk).of_kind? hkind
  counted id kind hk hf := by
    rcases hcount id hf with ⟨hold, hlength⟩ | hnew
    · rw [hkind id (mem_of_isFrozen hold)] at hk
      rw [hlength]
      exact h.counted id kind hk hold
    · exact hnew kind hk

theorem laidOut_begin (h : LaidOut g) (kind : Kind Name) (span : Span) :
    LaidOut (g.begin kind span) := by
  refine h.of_new (fun _ => kind?_begin) (fun id index e he => .inl ?_) fun id hf => .inl ⟨?_, ?_⟩
  · rwa [edge?, edges_begin] at he
  · rwa [isFrozen_begin] at hf
  · rw [edges_begin]

theorem laidOut_addChild (h : LaidOut g) {parent : NodeId} {new : Edge}
    (hcheck : g.checkPush parent new = .ok ()) : LaidOut (g.addChild parent new) := by
  obtain ⟨node, hn, hopen, hfits, _⟩ := checkPush_eq_ok.mp hcheck
  have hedges := edges_addChild (mem_iff_node?.mpr ⟨node, hn⟩) new
  have hchildren : g.edges parent = node.children := edges_of_node? hn
  refine h.of_new (fun _ _ => kind?_addChild _ _ _) (fun id index e he => ?_) fun id hf => .inl ?_
  · rw [edge?, hedges] at he
    split at he
    case isFalse => exact .inl he
    case isTrue hid =>
      subst hid
      rw [List.getElem?_append] at he
      split at he
      · exact .inl he
      · -- the one edge that is new is behind the others
        refine .inr fun kind hkind => ?_
        obtain ⟨hlast, hnew⟩ : index - (g.edges id).length = 0 ∧ new = e := by
          have hlast : index - (g.edges id).length = 0 := by
            have := (List.getElem?_eq_some_iff.mp he).1
            simpa using this
          exact ⟨hlast, by simpa [hlast] using he⟩
        have hindex : index = node.children.length := by
          rw [← hchildren]
          omega
        rw [kind?_addChild, kind?_of_node? hn, Option.some.injEq] at hkind
        rw [hindex, ← hkind, ← hnew]
        exact hfits
  · rw [isFrozen_addChild] at hf
    have hne : id ≠ parent := by
      rintro rfl
      simp [isFrozen, hn, hopen] at hf
    rw [hedges, if_neg hne]
    exact ⟨hf, rfl⟩

theorem laidOut_finish (h : LaidOut g) {id : NodeId} (hcheck : g.checkFreeze id = .ok ()) :
    LaidOut (g.finish id) := by
  obtain ⟨node, hn, _, haccepts⟩ := checkFreeze_eq_ok.mp hcheck
  refine h.of_new (fun _ _ => kind?_finish _ _) (fun other index e he => .inl ?_) fun other hf => ?_
  · rwa [edge?, edges_finish] at he
  · rw [isFrozen_finish (mem_iff_node?.mpr ⟨node, hn⟩), Bool.or_eq_true, decide_eq_true_eq] at hf
    rcases hf with rfl | hf
    · refine .inr fun kind hkind => ?_
      rw [kind?_finish, kind?_of_node? hn, Option.some.injEq] at hkind
      rw [edges_finish, edges_of_node? hn, ← hkind]
      exact haccepts
    · exact .inl ⟨hf, by rw [edges_finish]⟩

theorem laidOut_insert (h : LaidOut g) {kind : Kind Name} {children : List Edge} (span : Span)
    (hcheck : g.checkCreate kind children = .ok ()) : LaidOut (g.insert kind children span) := by
  obtain ⟨haccepts, hchildren⟩ := checkCreate_eq_ok.mp hcheck
  have hnew : ∀ k, (g.insert kind children span).kind? g.nextId = some k → k = kind := by
    intro k hk
    rw [kind?, node?_insert, if_pos rfl, Option.map_some, Option.some.injEq] at hk
    exact hk.symm
  refine h.of_new (fun _ => kind?_insert) (fun id index e he => ?_) fun id hf => ?_
  · rw [edge?, edges_insert] at he
    split at he
    case isFalse => exact .inl he
    case isTrue hid => exact .inr fun k hk => hnew k (hid ▸ hk) ▸ (hchildren index e he).1
  · rw [edges_insert]
    split
    case isTrue hid => exact .inr fun k hk => hnew k (hid ▸ hk) ▸ haccepts
    case isFalse hid =>
      rw [isFrozen_insert, Bool.or_eq_true, decide_eq_true_eq] at hf
      exact .inl ⟨hf.resolve_left hid, rfl⟩

theorem laidOut_setChild (h : LaidOut g) {parent : NodeId} {index : Nat} {old new : Edge}
    (hcheck : g.checkReplace parent index new = .ok old) (hne : old ≠ new) :
    LaidOut (g.setChild parent index old new) := by
  obtain ⟨node, hn, _, hnew⟩ := checkReplace_eq_ok.mp hcheck
  have hslot := edge?_of_checkReplace hcheck
  refine h.of_new (fun _ _ => kind?_setChild _ _ _ _ _) (fun id i e he => ?_) fun id hf => .inl ?_
  · rw [edge?_setChild hslot] at he
    split at he
    case isFalse => exact .inl he
    case isTrue hid =>
      obtain ⟨rfl, rfl⟩ := hid
      refine .inr fun kind hkind => ?_
      rw [kind?_setChild, kind?_of_node? hn, Option.some.injEq] at hkind
      rw [← hkind, ← Option.some.inj he]
      exact (hnew hne).1
  · rw [isFrozen_setChild] at hf
    refine ⟨hf, ?_⟩
    rw [edges_setChild]
    split
    case isTrue hid => rw [List.length_set, hid]
    case isFalse => rfl

/-- **Every change keeps to the layouts.** -/
theorem laidOut_change (h : LaidOut g) (hs : Change g g') : LaidOut g' := by
  cases hs with
  | begin kind span _ => exact laidOut_begin h kind span
  | push hcheck => exact laidOut_addChild h hcheck
  | freeze hcheck => exact laidOut_finish h hcheck
  | create span _ hcheck => exact laidOut_insert h span hcheck
  | replace hcheck hne => exact laidOut_setChild h hcheck hne

theorem laidOut_reachable {c : Context} (h : Reachable c) : LaidOut c.graph :=
  reachable_invariant laidOut_empty laidOut_change h

/-! ## Layouts -/

/-- A node has no more children than one of its kind may have when it is finished. -/
theorem LaidOut.length_le (h : LaidOut g) {id : NodeId} {node : Node}
    (hn : g.node? id = some node) :
    ∃ count, node.kind.layout.acceptsLength count = true ∧ node.children.length ≤ count := by
  cases hlength : node.children.length with
  | zero =>
    obtain ⟨count, hcount⟩ := node.kind.layout.exists_acceptsLength
    exact ⟨count, hcount, Nat.zero_le count⟩
  | succ last =>
    -- the last child has a slot
    have hlast : last < node.children.length := by omega
    have hedge : g.edge? id last = some node.children[last] := by
      rw [edge?_of_node? hn, List.getElem?_eq_getElem hlast]
    obtain ⟨target, _, hslot⟩ := h.fits id node.kind (kind?_of_node? hn) last _ hedge
    obtain ⟨count, hcount, hlt⟩ := Layout.slot_isSome_iff.mp (Option.isSome_of_eq_some hslot)
    exact ⟨count, hcount, hlt⟩

/-- **Layouts hold in every context that calls can lead to.** Every child of every node, finished or
not, is a node of the category that its slot asks for. A finished node has a number of children that
its kind accepts, and one that is not finished has not too many for that. -/
theorem layouts_hold {c : Context} (hc : Reachable c) {id : NodeId} {node : Node}
    (hn : c.graph.node? id = some node) :
    (∀ index e, node.children[index]? = some e → ∃ target, c.graph.node? e.target = some target
        ∧ node.kind.layout.slot index = some target.category)
      ∧ (node.frozen = true → node.kind.layout.acceptsLength node.children.length = true)
      ∧ ∃ count, node.kind.layout.acceptsLength count = true ∧ node.children.length ≤ count := by
  have h := laidOut_reachable hc
  have hkind := kind?_of_node? hn
  have hedges := edges_of_node? hn
  refine ⟨fun index e he => ?_, fun hf => ?_, h.length_le hn⟩
  · refine h.fits id node.kind hkind index e ?_
    rw [edge?, hedges]
    exact he
  · rw [← hedges]
    exact h.counted id node.kind hkind (by rw [isFrozen, hn]; exact hf)

/-- The wrapper in the field of the sample record has been replaced. The field still has one child,
which is all that it needs, and of the right category. -/
theorem layouts_hold_linkedRecord :
    Reachable (runAll linkedRecord .fresh)
      ∧ ∃ field wrapper, (runAll linkedRecord .fresh).graph.node? ⟨2⟩ = some field
        ∧ (runAll linkedRecord .fresh).graph.node? ⟨3⟩ = some wrapper
        ∧ field.children = [.owned ⟨3⟩] ∧ field.frozen = true
        ∧ field.kind.layout.slot 0 = some wrapper.category
        ∧ field.kind.layout.acceptsLength 1 = true := by
  have hreach : Reachable (runAll linkedRecord .fresh) := leads_runAll _ (.refl _)
  have hnode : (runAll linkedRecord .fresh).graph.node? ⟨2⟩ =
      some ⟨.declaration (.field (.ofParts 3 0)), .dummy, [.owned ⟨3⟩], some ⟨0⟩, true⟩ := by
    decide +kernel
  obtain ⟨hslots, haccepts, _⟩ := layouts_hold hreach hnode
  obtain ⟨wrapper, hwrapper, hslot⟩ := hslots 0 (.owned ⟨3⟩) rfl
  exact ⟨hreach, _, wrapper, hnode, hwrapper, rfl, rfl, hslot, haccepts rfl⟩

end Graph

end SyntaxGraph
