import Mathlib.Logic.Basic
import SyntaxGraph.Proofs.ValueTypes

/-!
# References to declarations

A reference to a declaration shares the type of the declaration, so it can be
made only of one that has a type. Of all nodes a program can come across, those
are the declarations that have a first child: whatever it is, it fits the slot for
the type, since nothing gets into a slot that it does not fit.

A declaration without children is one that has been begun and given nothing yet.
It is refused like a node that is no declaration, in the same words. That makes
the answer wrong there, and only there: it says that a declaration was expected
and that a declaration was found.
-/

namespace SyntaxGraph

/-! ## Declarations with a type -/

namespace Graph

variable {g : Graph}

/-- The node is a declaration that has been begun and has no type so far. -/
def Untyped (g : Graph) (id : NodeId) : Prop :=
  ∃ node, g.node? id = some node ∧ node.category = .declaration ∧ node.children = []

/-- A finished declaration has a type. -/
theorem isFrozen_of_untyped (hlaid : LaidOut g) {id : NodeId} (h : g.Untyped id) :
    g.isFrozen id = false := by
  obtain ⟨node, hn, hcategory, hnone⟩ := h
  cases hfrozen : g.isFrozen id with
  | false => rfl
  | true =>
    have hcount := hlaid.counted id node.kind (kind?_of_node? hn) hfrozen
    rw [edges_of_node? hn, hnone] at hcount
    cases hkind : node.kind with
    | declaration what =>
      rw [hkind] at hcount
      cases what <;> simp [Kind.layout, Declaration.layout, Layout.acceptsLength, Layout.exactly]
        at hcount
    | _ => simp [Node.category, Kind.category, hkind] at hcategory

theorem exists_declaration {node : Node} (h : node.category = .declaration) :
    ∃ what, node.kind = .declaration what := by
  cases hkind : node.kind with
  | declaration what => exact ⟨what, rfl⟩
  | _ => simp [Node.category, Kind.category, hkind] at h

/-- The type of a declaration is what its first slot leads to. -/
theorem typeOf_declaration {id : NodeId} {node : Node} (hn : g.node? id = some node)
    (hcategory : node.category = .declaration) : g.typeOf id = .ok (node.target? 0) := by
  obtain ⟨what, hkind⟩ := exists_declaration hcategory
  rw [typeOf, typeFrom_of_node? (by simp) hn, hkind]
  rfl

/-- Why there is no reference to the node: it is no declaration, or it has no type. -/
def undeclared (node : Node) : NodeError :=
  .childCategory "expression::DeclRef" 1 .declaration node.category

theorem checkDeclaration_of_typed {id : NodeId} {node : Node} {e : Edge} {rest : List Edge}
    (hn : g.node? id = some node) (hcategory : node.category = .declaration)
    (hchildren : node.children = e :: rest) : g.checkDeclaration id = .ok e.target := by
  obtain ⟨what, hkind⟩ := exists_declaration hcategory
  have htype : g.typeOf id = .ok (some e.target) := by
    rw [typeOf_declaration hn hcategory, Node.target?, hchildren]
    rfl
  have hread : reading (.ok (some e.target) : Except Fault (Option NodeId)) =
      .ok (some e.target) := rfl
  simp only [checkDeclaration, known_eq_ok.mpr hn, hkind, htype, hread, bind, Except.bind, pure,
    Except.pure]

theorem checkDeclaration_of_untyped {id : NodeId} {node : Node} (hn : g.node? id = some node)
    (h : node.category ≠ .declaration ∨ node.children = []) :
    g.checkDeclaration id = .error (undeclared node) := by
  have hknown := known_eq_ok.mpr hn
  cases hkind : node.kind with
  | declaration what =>
    have hcategory : node.category = .declaration := by rw [Node.category, hkind]; rfl
    have htype : g.typeOf id = .ok none := by
      rw [typeOf_declaration hn hcategory, Node.target?,
        h.resolve_left (not_not_intro hcategory)]
      rfl
    have hread : reading (.ok none : Except Fault (Option NodeId)) = .ok none := rfl
    simp only [checkDeclaration, hknown, hkind, htype, hread, bind, Except.bind]
    rfl
  | _ =>
    simp only [checkDeclaration, hknown, hkind, bind, Except.bind]
    rfl

/-- The type in the first slot of a declaration is a qualified type, so it fits the reference. -/
theorem checkCreate_reference (hlaid : LaidOut g) {id : NodeId} {node : Node} {e : Edge}
    {rest : List Edge} (hn : g.node? id = some node) (hcategory : node.category = .declaration)
    (hchildren : node.children = e :: rest) :
    g.checkCreate (.expression .declarationRef) [.ref e.target, .ref id] = .ok () := by
  obtain ⟨what, hkind⟩ := exists_declaration hcategory
  have hslot : node.kind.layout.slot 0 = some .qualifiedType := by
    rw [hkind]
    exact Kind.slot_zero rfl rfl
  have hedge : g.edge? id 0 = some e := by
    rw [edge?_of_node? hn, hchildren]
    rfl
  obtain ⟨type, htype, htypeSlot⟩ := hlaid.fits id node.kind (kind?_of_node? hn) 0 e hedge
  refine checkCreate_eq_ok.mpr ⟨rfl, fun index child hchild => ?_⟩
  match index with
  | 0 =>
    obtain rfl : .ref e.target = child := Option.some.inj hchild
    refine ⟨⟨type, htype, ?_⟩, fun _ => Edge.noConfusion⟩
    rw [← htypeSlot, hslot]
    rfl
  | 1 =>
    obtain rfl : .ref id = child := Option.some.inj hchild
    exact ⟨⟨node, hn, by rw [hcategory]; rfl⟩, fun _ => Edge.noConfusion⟩
  | index + 2 => simp at hchild

end Graph

/-! ## The request -/

section References

variable {c : Context} {id : NodeId}

theorem Graph.untyped_iff {node : Node} (hn : c.graph.node? id = some node) :
    c.graph.Untyped id ↔ node.category = .declaration ∧ node.children = [] := by
  simp [Graph.Untyped, hn]

/-- A node that gives a reason for a refusal is no declaration with a type. -/
theorem Graph.not_declared {node : Node} (hn : c.graph.node? id = some node)
    (hwhy : node.category ≠ .declaration ∨ c.graph.Untyped id) :
    ¬ ((∃ node, c.graph.node? id = some node ∧ node.category = .declaration)
      ∧ ¬ c.graph.Untyped id) := by
  intro h
  obtain ⟨⟨other, hother, hcategory⟩, htyped⟩ := h
  rw [← Option.some.inj (hn.symm.trans hother)] at hcategory
  exact hwhy.resolve_right htyped hcategory

/-- The ways for the request to end. -/
inductive Build.Referred (c : Context) (id : NodeId) :
    EStateM.Result BuildError Context NodeId → Prop where
  | unknown (hid : id ∉ c.graph) : Referred c id (.error (.node (.unknownNode id)) c)
  | refused {node : Node} (hn : c.graph.node? id = some node)
      (hwhy : node.category ≠ .declaration ∨ c.graph.Untyped id) :
      Referred c id (.error (.node (Graph.undeclared node)) c)
  | full {node : Node} (hn : c.graph.node? id = some node)
      (hcategory : node.category = .declaration) (htyped : ¬ c.graph.Untyped id)
      (hroom : ¬ c.graph.HasRoom 1) : Referred c id (.error (.full c.graph.size) c)
  | made {node : Node} (hn : c.graph.node? id = some node)
      (hcategory : node.category = .declaration) (htyped : ¬ c.graph.Untyped id)
      (hroom : c.graph.HasRoom 1) (d : Context) : Referred c id (.ok c.graph.nextId d)

theorem Build.declarationRef_ends (hlaid : c.graph.LaidOut) (id : NodeId) (span : Span) :
    Referred c id (declarationRef id span c) := by
  cases hn : c.graph.node? id with
  | none =>
    have hcheck : c.graph.checkDeclaration id = .error (.unknownNode id) := by
      simp only [Graph.checkDeclaration, Graph.known, hn, bind, Except.bind]
    have hrun : declarationRef id span c = .error (.node (.unknownNode id)) c := by
      simp only [declarationRef, check, hcheck, bind, EStateM.bind]
    rw [hrun]
    exact .unknown (Graph.not_mem_iff_node?.mpr hn)
  | some node =>
    by_cases h : node.category = .declaration ∧ ¬ c.graph.Untyped id
    · obtain ⟨hcategory, htyped⟩ := h
      have hsome : node.children ≠ [] := fun hnil =>
        htyped ((Graph.untyped_iff hn).mpr ⟨hcategory, hnil⟩)
      obtain ⟨e, rest, hchildren⟩ := List.exists_cons_of_ne_nil hsome
      have hcheck := Graph.checkDeclaration_of_typed hn hcategory hchildren
      have hcreate := Graph.checkCreate_reference hlaid hn hcategory hchildren
      have hrun : declarationRef id span c =
          create (.expression .declarationRef) [.ref e.target, .ref id] span c := by
        simp only [declarationRef, check, hcheck, bind, EStateM.bind]
      rw [hrun]
      -- the type and the declaration fit, so it is down to the room
      by_cases hroom : c.graph.HasRoom 1
      · rw [create_eq_ok.mpr ⟨hcreate, hroom, rfl, rfl⟩]
        exact .made hn hcategory htyped hroom _
      · rw [create_of_full hcreate hroom]
        exact .full hn hcategory htyped hroom
    · have hwhy : node.category ≠ .declaration ∨ c.graph.Untyped id := by
        by_cases hcategory : node.category = .declaration
        · exact .inr (not_not.mp fun htyped => h ⟨hcategory, htyped⟩)
        · exact .inl hcategory
      have hcheck : c.graph.checkDeclaration id = .error (Graph.undeclared node) := by
        refine Graph.checkDeclaration_of_untyped hn (hwhy.imp_right fun hu => ?_)
        exact ((Graph.untyped_iff hn).mp hu).2
      have hrun : declarationRef id span c = .error (.node (Graph.undeclared node)) c := by
        simp only [declarationRef, check, hcheck, bind, EStateM.bind]
      rw [hrun]
      exact .refused hn hwhy

section Ends

variable {result : EStateM.Result BuildError Context NodeId} (h : Build.Referred c id result)

include h

theorem Build.Referred.unchanged {cause : BuildError} {d : Context} (hr : result = .error cause d) :
    d = c := by
  cases h <;> cases hr <;> rfl

theorem Build.Referred.unknown_iff {other : NodeId} :
    result = .error (.node (.unknownNode other)) c ↔ other = id ∧ id ∉ c.graph := by
  cases h with
  | unknown hid => simp [hid, eq_comm]
  | refused hn _ => simp [Graph.undeclared, Graph.mem_iff_node?.mpr ⟨_, hn⟩]
  | full hn _ _ _ => simp [Graph.mem_iff_node?.mpr ⟨_, hn⟩]
  | made hn _ _ _ d => simp [Graph.mem_iff_node?.mpr ⟨_, hn⟩]

theorem Build.Referred.category_iff {variant : String} {index : Nat} {expected found : Category} :
    result = .error (.node (.childCategory variant index expected found)) c ↔
      variant = "expression::DeclRef" ∧ index = 1 ∧ expected = .declaration
        ∧ ∃ node, c.graph.node? id = some node ∧ found = node.category
          ∧ (found ≠ expected ∨ c.graph.Untyped id) := by
  cases h with
  | unknown hid => simp [Graph.not_mem_iff_node?.mp hid]
  | @refused node hn hwhy =>
    rw [Graph.undeclared]
    constructor
    · intro h
      injection h with h
      injection h with h
      injection h with hvariant hindex hexpected hfound
      subst hexpected
      exact ⟨hvariant.symm, hindex.symm, rfl, node, hn, hfound.symm, hfound ▸ hwhy⟩
    · intro h
      obtain ⟨rfl, rfl, rfl, other, hother, rfl, _⟩ := h
      rw [Option.some.inj (hn.symm.trans hother)]
  | full hn hcategory htyped _ =>
    refine iff_of_false (by simp) ?_
    rintro ⟨_, _, rfl, _, hother, rfl, hwhy⟩
    exact Graph.not_declared hother hwhy ⟨⟨_, hn, hcategory⟩, htyped⟩
  | made hn hcategory htyped _ d =>
    refine iff_of_false (by simp) ?_
    rintro ⟨_, _, rfl, _, hother, rfl, hwhy⟩
    exact Graph.not_declared hother hwhy ⟨⟨_, hn, hcategory⟩, htyped⟩

theorem Build.Referred.ok_iff : (∃ ref d, result = .ok ref d) ↔
    ((∃ node, c.graph.node? id = some node ∧ node.category = .declaration)
      ∧ ¬ c.graph.Untyped id) ∧ c.graph.HasRoom 1 := by
  cases h with
  | unknown hid => simp [Graph.not_mem_iff_node?.mp hid]
  | refused hn hwhy => simp [Graph.not_declared hn hwhy]
  | full hn _ _ hroom => simp [hroom]
  | made hn hcategory htyped hroom d =>
    exact ⟨fun _ => ⟨⟨⟨_, hn, hcategory⟩, htyped⟩, hroom⟩, fun _ => ⟨_, d, rfl⟩⟩

theorem Build.Referred.full_iff : (∃ count d, result = .error (.full count) d) ↔
    ((∃ node, c.graph.node? id = some node ∧ node.category = .declaration)
      ∧ ¬ c.graph.Untyped id) ∧ ¬ c.graph.HasRoom 1 := by
  cases h with
  | unknown hid => simp [Graph.not_mem_iff_node?.mp hid]
  | refused hn hwhy => simp [Graph.not_declared hn hwhy]
  | full hn hcategory htyped hroom =>
    exact ⟨fun _ => ⟨⟨⟨_, hn, hcategory⟩, htyped⟩, hroom⟩, fun _ => ⟨_, c, rfl⟩⟩
  | made hn _ _ hroom d => simp [hroom]

end Ends

end References

/-- If a reference to the node is refused for a category, then the category found is that of the
node, and another one than was expected. -/
def CategoryDiffers (c : Context) (id : NodeId) (span : Span) : Prop :=
  ∀ variant index expected found d,
    Build.declarationRef id span c =
        .error (.node (.childCategory variant index expected found)) d →
      ∃ node, c.graph.node? id = some node ∧ found = node.category ∧ found ≠ expected

/-- **When a reference to a declaration is refused.** It is refused exactly for ids that name no
node, for nodes of another category, and for declarations that have no type so far. The last are
refused as if they were of another category. None of them is finished, and but for them the category
found is never the one that was expected. What is not refused is made, if there is room for it. -/
theorem declarationRef_refusals {c : Context} (hc : Reachable c) (id : NodeId) (span : Span) :
    (∀ cause d, Build.declarationRef id span c = .error cause d → d = c)
      ∧ (∀ other, Build.declarationRef id span c = .error (.node (.unknownNode other)) c ↔
        other = id ∧ id ∉ c.graph)
      ∧ (∀ variant index expected found,
        Build.declarationRef id span c =
            .error (.node (.childCategory variant index expected found)) c ↔
          variant = "expression::DeclRef" ∧ index = 1 ∧ expected = .declaration
            ∧ ∃ node, c.graph.node? id = some node ∧ found = node.category
              ∧ (found ≠ expected ∨ c.graph.Untyped id))
      ∧ ((∃ ref d, Build.declarationRef id span c = .ok ref d) ↔
        ((∃ node, c.graph.node? id = some node ∧ node.category = .declaration)
          ∧ ¬ c.graph.Untyped id) ∧ c.graph.HasRoom 1)
      ∧ ((∃ count d, Build.declarationRef id span c = .error (.full count) d) ↔
        ((∃ node, c.graph.node? id = some node ∧ node.category = .declaration)
          ∧ ¬ c.graph.Untyped id) ∧ ¬ c.graph.HasRoom 1)
      ∧ (c.graph.Untyped id → c.graph.isFrozen id = false)
      ∧ (CategoryDiffers c id span ↔ ¬ c.graph.Untyped id) := by
  have hlaid := Graph.laidOut_reachable hc
  have hends := Build.declarationRef_ends hlaid id span
  refine ⟨fun _ _ => hends.unchanged, fun _ => hends.unknown_iff, fun _ _ _ _ => hends.category_iff,
    hends.ok_iff, hends.full_iff, Graph.isFrozen_of_untyped hlaid, ?_⟩
  constructor
  · intro hdiffers huntyped
    obtain ⟨node, hn, hcategory, hnone⟩ := huntyped
    have hrun : Build.declarationRef id span c = .error (.node (Graph.undeclared node)) c :=
      hends.category_iff.mpr ⟨rfl, rfl, rfl, node, hn, rfl, .inr ⟨node, hn, hcategory, hnone⟩⟩
    obtain ⟨_, _, _, hne⟩ := hdiffers _ _ _ _ _ hrun
    exact hne hcategory
  · intro htyped variant index expected found d h
    obtain rfl := hends.unchanged h
    obtain ⟨_, _, _, node, hn, hfound, hwhy⟩ := hends.category_iff.mp h
    exact ⟨node, hn, hfound, hwhy.resolve_right htyped⟩

/-- The sample record is no declaration. -/
theorem declarationRef_refusals_linkedRecord :
    let c := runAll linkedRecord .fresh
    Reachable c ∧ ¬ c.graph.Untyped ⟨0⟩ ∧ CategoryDiffers c ⟨0⟩ .dummy
      ∧ Build.declarationRef ⟨0⟩ .dummy c =
        .error (.node (.childCategory "expression::DeclRef" 1 .declaration .type)) c := by
  intro c
  have hc : Reachable c := leads_runAll linkedRecord (.refl _)
  have hn : c.graph.node? ⟨0⟩ =
      some ⟨.type .struct, .dummy, [.owned ⟨2⟩], none, true⟩ := by decide +kernel
  have hnot : ¬ c.graph.Untyped ⟨0⟩ := by
    intro h
    obtain ⟨node, hnode, hcategory, _⟩ := h
    rw [← Option.some.inj (hn.symm.trans hnode)] at hcategory
    exact Category.noConfusion hcategory
  obtain ⟨_, _, hcategory, _, _, _, hdiffers⟩ := declarationRef_refusals hc ⟨0⟩ .dummy
  refine ⟨hc, hnot, hdiffers.mpr hnot, (hcategory _ _ _ _).mpr ⟨rfl, rfl, rfl, _, hn, rfl, ?_⟩⟩
  exact .inl (by simp)

/-- A variable that has been begun. -/
def begunVariable : List Command :=
  [.make (.begin (.declaration (.localVariable (.text "x")))) .dummy]

/-- A declaration without a type is refused for being a declaration instead of a declaration. -/
theorem exists_not_categoryDiffers :
    ¬ ∀ c, Reachable c → ∀ id span, CategoryDiffers c id span := by
  intro h
  have hc : Reachable (runAll begunVariable .fresh) := leads_runAll begunVariable (.refl _)
  have hn : (runAll begunVariable .fresh).graph.node? ⟨0⟩ =
      some ⟨.declaration (.localVariable (.ofParts 8 0)), .dummy, [], none, false⟩ := by
    decide +kernel
  have hcheck := Graph.checkDeclaration_of_untyped hn (.inr rfl)
  have hrun : Build.declarationRef ⟨0⟩ .dummy (runAll begunVariable .fresh) =
      .error (.node (.childCategory "expression::DeclRef" 1 .declaration .declaration))
        (runAll begunVariable .fresh) := by
    simp only [Build.declarationRef, Build.check, hcheck, bind, EStateM.bind]
    rfl
  obtain ⟨_, _, _, hne⟩ := h _ hc ⟨0⟩ .dummy _ _ _ _ _ hrun
  exact hne rfl

end SyntaxGraph
