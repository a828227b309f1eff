import SyntaxGraph.Proofs.Writes

/-!
# What a passed check says

A check answers why an operation is refused. Here each check is turned into the
condition under which it passes, so that the theory can speak of conditions and
never of the order in which they were looked at.
-/

namespace SyntaxGraph.Graph

variable {g : Graph}

/-- A node of the category that the slot of the kind asks for. -/
def Fits (g : Graph) (kind : Kind Name) (index : Nat) (id : NodeId) : Prop :=
  ∃ node, g.node? id = some node ∧ kind.layout.slot index = some node.category

/-- A node that is finished and that nothing owns. -/
structure Free (g : Graph) (id : NodeId) : Prop where
  frozen : g.isFrozen id = true
  unowned : g.parent? id = none

/-- What the edge owns, if it owns something, is free and not above its owner to be. -/
def Adoptable (g : Graph) (owner : NodeId) (e : Edge) : Prop :=
  ∀ child, e = .owned child → g.Free child ∧ g.isAbove child owner = .ok false

/-- If the first node is resolved, the second one is as well. Both can be asked. -/
def NoRegress (g : Graph) (old new : NodeId) : Prop :=
  ∃ resolved, g.isResolved old = .ok resolved ∧ (resolved = true → g.isResolved new = .ok true)

/-! ## The parts of a check -/

theorem bind_eq_ok {ε α β : Type} {x : Except ε α} {f : α → Except ε β} {b : β} :
    (x >>= f) = .ok b ↔ ∃ a, x = .ok a ∧ f a = .ok b := by
  cases x <;> simp [bind, Except.bind]

theorem then_eq_ok {ε β : Type} {x : Except ε Unit} {f : Unit → Except ε β} {b : β} :
    (x >>= f) = .ok b ↔ x = .ok () ∧ f () = .ok b := by
  cases x <;> simp [bind, Except.bind]

@[simp] theorem refuseIf_eq_ok {refused : Bool} {e : NodeError} :
    refuseIf refused e = .ok () ↔ refused = false := by
  cases refused <;> simp [refuseIf]

@[simp] theorem reading_eq_ok {α : Type} {answer : Except Fault α} {a : α} :
    reading answer = .ok a ↔ answer = .ok a := by
  cases answer with
  | error fault =>
    have hread : reading (.error fault : Except Fault α) = .error (.fault fault) := rfl
    simp [hread]
  | ok found =>
    have hread : reading (.ok found) = .ok found := rfl
    simp [hread]

@[simp] theorem known_eq_ok {id : NodeId} {node : Node} :
    g.known id = .ok node ↔ g.node? id = some node := by
  cases h : g.node? id <;> simp [known, h]

theorem Fits.mem {kind : Kind Name} {index : Nat} {id : NodeId} (h : g.Fits kind index id) :
    id ∈ g := by
  obtain ⟨node, hn, _⟩ := h
  exact mem_iff_node?.mpr ⟨node, hn⟩

theorem Free.mem {id : NodeId} (h : g.Free id) : id ∈ g := mem_of_isFrozen h.frozen

theorem checkSlot_eq_ok {kind : Kind Name} {index : Nat} {id : NodeId} :
    g.checkSlot kind index id = .ok () ↔ g.Fits kind index id := by
  unfold checkSlot Fits
  cases kind.layout.slot index with
  | none => simp
  | some expected =>
    simp only [bind_eq_ok, known_eq_ok, refuseIf_eq_ok, Option.some.injEq]
    refine exists_congr fun node => and_congr_right fun _ => ?_
    rw [decide_eq_false_iff_not, Decidable.not_not]
    exact eq_comm

theorem checkFree_eq_ok {id : NodeId} : g.checkFree id = .ok () ↔ g.Free id := by
  cases hn : g.node? id with
  | none =>
    have hne : ¬ g.Free id := fun h => not_mem_iff_node?.mpr hn h.mem
    simp [checkFree, read, bind_eq_ok, hn, hne]
  | some node =>
    have hf : g.isFrozen id = node.frozen := by simp [isFrozen, hn]
    have hp : g.parent? id = node.parent := by simp [parent?, hn]
    have hfree : g.Free id ↔ node.frozen = true ∧ node.parent = none := by
      rw [← hf, ← hp]
      exact ⟨fun h => ⟨h.frozen, h.unowned⟩, fun h => ⟨h.1, h.2⟩⟩
    rw [hfree]
    cases hpar : node.parent <;>
      simp [checkFree, read, bind_eq_ok (α := Node), then_eq_ok, hn, hpar]

theorem checkEdge_eq_ok {owner : NodeId} {e : Edge} :
    g.checkEdge owner e = .ok () ↔ g.Adoptable owner e := by
  cases e with
  | ref target => simp [checkEdge, Adoptable]
  | owned child =>
    simp [checkEdge, checkAdoption, then_eq_ok, bind_eq_ok (α := Bool), checkFree_eq_ok, Adoptable]

@[simp] theorem checkArity_eq_ok {kind : Kind Name} {count : Nat} :
    checkArity kind count = .ok () ↔ kind.layout.acceptsLength count = true := by
  simp [checkArity]

@[simp] theorem checkOpen_eq_ok {id : NodeId} {node : Node} :
    checkOpen id node = .ok () ↔ node.frozen = false := by
  simp [checkOpen]

/-! ## The checks of the operations -/

theorem checkPush_eq_ok {parent : NodeId} {e : Edge} :
    g.checkPush parent e = .ok () ↔
      ∃ node, g.node? parent = some node ∧ node.frozen = false
        ∧ g.Fits node.kind node.children.length e.target ∧ g.Adoptable parent e := by
  simp [checkPush, bind_eq_ok (α := Node), then_eq_ok, checkSlot_eq_ok, checkEdge_eq_ok]

theorem checkFreeze_eq_ok {id : NodeId} :
    g.checkFreeze id = .ok () ↔
      ∃ node, g.node? id = some node ∧ node.frozen = false
        ∧ node.kind.layout.acceptsLength node.children.length = true := by
  simp [checkFreeze, bind_eq_ok (α := Node), then_eq_ok]

theorem checkChildren_cons_eq_ok {kind : Kind Name} {earlier rest : List Edge} {e : Edge} :
    g.checkChildren kind earlier (e :: rest) = .ok () ↔
      g.Fits kind earlier.length e.target
        ∧ (∀ child, e = .owned child → g.Free child ∧ e ∉ earlier)
        ∧ g.checkChildren kind (earlier ++ [e]) rest = .ok () := by
  cases e with
  | ref target => simp [checkChildren, then_eq_ok, checkSlot_eq_ok]
  | owned child => simp [checkChildren, then_eq_ok, checkSlot_eq_ok, checkFree_eq_ok, and_assoc]

/-- The edges after `earlier` fit their slots, and each node they own is free and comes once. -/
theorem checkChildren_eq_ok {kind : Kind Name} {rest : List Edge} :
    ∀ {earlier : List Edge}, g.checkChildren kind earlier rest = .ok () ↔
      ∀ index e, rest[index]? = some e →
        g.Fits kind (earlier.length + index) e.target
          ∧ ∀ child, e = .owned child → g.Free child ∧ e ∉ earlier ++ rest.take index := by
  induction rest with
  | nil => intro earlier; simp [checkChildren]
  | cons e rest ih =>
    intro earlier
    rw [checkChildren_cons_eq_ok, ih]
    constructor
    · rintro ⟨hfit, hown, hrest⟩ index e' he'
      cases index with
      | zero =>
        have : e = e' := by simpa using he'
        subst this
        exact ⟨by simpa using hfit, by simpa using hown⟩
      | succ index =>
        have := hrest index e' (by simpa using he')
        simpa [Nat.add_assoc, Nat.add_comm 1] using this
    · intro h
      refine ⟨by simpa using (h 0 e (by simp)).1, by simpa using (h 0 e (by simp)).2, ?_⟩
      intro index e' he'
      have := h (index + 1) e' (by simpa using he')
      simpa [Nat.add_assoc, Nat.add_comm 1] using this

theorem checkCreate_eq_ok {kind : Kind Name} {children : List Edge} :
    g.checkCreate kind children = .ok () ↔
      kind.layout.acceptsLength children.length = true ∧
        ∀ index e, children[index]? = some e →
          g.Fits kind index e.target
            ∧ ∀ child, e = .owned child → g.Free child ∧ e ∉ children.take index := by
  simp [checkCreate, then_eq_ok, checkChildren_eq_ok]

theorem checkReplace_eq_ok {parent : NodeId} {index : Nat} {e old : Edge} :
    g.checkReplace parent index e = .ok old ↔
      ∃ node, g.node? parent = some node ∧ node.children[index]? = some old
        ∧ (old ≠ e → g.Fits node.kind index e.target ∧ g.Adoptable parent e
            ∧ g.NoRegress old.target e.target) := by
  unfold checkReplace
  rw [bind_eq_ok]
  simp only [known_eq_ok]
  refine exists_congr fun node => and_congr_right fun _ => ?_
  cases node.children[index]? with
  | none => simp
  | some current =>
    by_cases he : current = e
    · simp only [he, ↓reduceIte, pure, Except.pure, Except.ok.injEq, Option.some.injEq]
      exact ⟨fun h => ⟨h, fun hne => absurd h.symm hne⟩, fun h => h.1⟩
    · by_cases ho : current = old
      · subst ho
        simp [he, then_eq_ok, bind_eq_ok (α := Bool), checkSlot_eq_ok, checkEdge_eq_ok, NoRegress,
          refuseIf, pure, Except.pure]
      · simp [he, ho, then_eq_ok, bind_eq_ok (α := Bool), refuseIf, pure, Except.pure]

theorem edge?_of_checkReplace {parent : NodeId} {index : Nat} {e old : Edge}
    (h : g.checkReplace parent index e = .ok old) : g.edge? parent index = some old := by
  obtain ⟨node, hn, hold, _⟩ := checkReplace_eq_ok.mp h
  rw [edge?_of_node? hn, hold]

end SyntaxGraph.Graph
