import SyntaxGraph.Proofs.Bisimulation
import SyntaxGraph.Proofs.Capacity
import SyntaxGraph.Proofs.Handles
import SyntaxGraph.Proofs.IntegerTypes
import SyntaxGraph.Proofs.ValueTypes

/-!
# Integer types and their values

An integer type, its default value and the constant type of the value are a circle
of three nodes: the type owns the value, the value owns its own type, and that
refers back to the integer type. All three are finished when they are made, so
nothing but a replacement at one of their slots can ever change what they hold.

Whatever calls are made then, as long as they do not do that, the circle is there
as it was made. It can be gone round by every question: the value has the type that
owns it, the type is resolved, for there is no placeholder in the circle and no way
out of it, and two such circles are equal step by step if they start from the same
signedness and width.
-/

namespace SyntaxGraph

open Relation

namespace Graph

variable {g : Graph}

/-! ## Finished nodes that are left alone -/

/-- The node is finished, of the kind and with the edges. -/
def Finished (g : Graph) (id : NodeId) (kind : Kind Name) (children : List Edge) : Prop :=
  ∃ node, g.node? id = some node ∧ node.kind = kind ∧ node.children = children
    ∧ node.frozen = true

variable {id : NodeId} {kind : Kind Name} {children : List Edge}

theorem Finished.mem (h : g.Finished id kind children) : id ∈ g := by
  obtain ⟨node, hn, _⟩ := h
  exact mem_iff_node?.mpr ⟨node, hn⟩

theorem Finished.kind?_eq (h : g.Finished id kind children) : g.kind? id = some kind := by
  obtain ⟨node, hn, rfl, _⟩ := h
  exact kind?_of_node? hn

theorem Finished.edges_eq (h : g.Finished id kind children) : g.edges id = children := by
  obtain ⟨node, hn, _, rfl, _⟩ := h
  exact edges_of_node? hn

theorem Finished.isFrozen_eq (h : g.Finished id kind children) : g.isFrozen id = true := by
  obtain ⟨node, hn, _, _, hfrozen⟩ := h
  rw [isFrozen, hn]
  exact hfrozen

theorem Finished.isPlaceholder_eq (h : g.Finished id kind children) :
    g.isPlaceholder id = kind.isPlaceholder := by
  rw [isPlaceholder, h.kind?_eq, Option.any_some]

theorem Finished.target_of_link {e : Edge} (h : g.Finished id kind [e]) {target : NodeId}
    (hlink : g.Link id target) : target = e.target := by
  obtain ⟨e', he', rfl⟩ := hlink
  rw [h.edges_eq, List.mem_singleton] at he'
  rw [he']

/-- **A finished node stays what it is** as long as no child of it is replaced. -/
theorem Finished.kept {c d : Context} (h : c.graph.Finished id kind children)
    {replaced : Slot → Prop} (hspares : Spares replaced c d)
    (hkept : ∀ index, ¬ replaced (id, index)) : d.graph.Finished id kind children := by
  obtain ⟨node, hn, rfl, rfl, hfrozen⟩ := h
  obtain ⟨node', hn', hbecomes⟩ := becomes_changes (changes_graph hspares.changes) hn
  obtain ⟨hfrozen', hlength⟩ := hbecomes.frozen hfrozen
  refine ⟨node', hn', hbecomes.kind, List.ext_getElem? fun index => ?_, hfrozen'⟩
  cases he : node.children[index]? with
  | none => rw [List.getElem?_eq_none_iff, hlength, ← List.getElem?_eq_none_iff, he]
  | some e =>
    have hslot := hspares.kept (id, index) e (hkept index) ((edge?_of_node? hn index).trans he)
    exact (edge?_of_node? hn' index).symm.trans hslot

/-- Finished nodes of one kind are alike if their edges lead to related nodes. -/
theorem Finished.alike {id' : NodeId} {children' : List Edge} (h : g.Finished id kind children)
    (h' : g.Finished id' kind children') {R : NodeId → NodeId → Prop}
    (hR : List.Forall₂ R (children.map Edge.target) (children'.map Edge.target)) :
    g.Alike R id id' := by
  obtain ⟨node, hn, rfl, rfl, _⟩ := h
  obtain ⟨node', hn', hkind, rfl, _⟩ := h'
  exact ⟨node, node', hn, hn', hkind.symm, hR⟩

/-! ## What is added -/

section Added

variable (g) (sign : Signedness) (width : UInt16) (span : Span)

theorem node?_withInteger_value : (g.withInteger sign width span).node? ⟨g.size + 2⟩ =
    some ⟨.literal (.zero sign width), span, [.owned ⟨g.size + 1⟩], some g.nextId, true⟩ := by
  rw [node?_withInteger, if_pos rfl]

theorem node?_withInteger_constant : (g.withInteger sign width span).node? ⟨g.size + 1⟩ =
    some ⟨.qualifiedType .onlyConst, span, [.ref g.nextId], some ⟨g.size + 2⟩, true⟩ := by
  rw [node?_withInteger, if_neg (by simp), if_pos rfl]

theorem node?_withInteger_type : (g.withInteger sign width span).node? g.nextId =
    some ⟨.type (.integer sign width), span, [.owned ⟨g.size + 2⟩], none, true⟩ := by
  rw [node?_withInteger, if_neg (by simp [nextId]), if_neg (by simp [nextId]), if_pos rfl]

theorem node?_withInteger_of_mem {id : NodeId} (hid : id ∈ g) :
    (g.withInteger sign width span).node? id = g.node? id := by
  have hlt := mem_def.mp hid
  have hne : ∀ index, g.size ≤ index → id ≠ ⟨index⟩ := by
    rintro index hle rfl
    exact absurd hlt (Nat.not_lt.mpr hle)
  rw [node?_withInteger, if_neg (hne _ (by omega)), if_neg (hne _ (by omega)),
    if_neg (ne_nextId hid)]

theorem added_withInteger (id : NodeId) :
    (id ∈ g.withInteger sign width span ∧ id ∉ g) ↔
      id ∈ [g.nextId, ⟨g.size + 2⟩, ⟨g.size + 1⟩] := by
  obtain ⟨index⟩ := id
  rw [mem_def, mem_def, size_withInteger]
  simp only [nextId, List.mem_cons, NodeId.mk.injEq, List.not_mem_nil, or_false]
  omega

end Added

/-! ## The circle of three nodes -/

/-- An integer type, the value that it owns, and the type of the value, which refers to the integer
type. -/
structure IntegerCircle (g : Graph) (sign : Signedness) (width : UInt16)
    (type value constant : NodeId) : Prop where
  type_finished : g.Finished type (.type (.integer sign width)) [.owned value]
  value_finished : g.Finished value (.literal (.zero sign width)) [.owned constant]
  constant_finished : g.Finished constant (.qualifiedType .onlyConst) [.ref type]

theorem circle_withInteger (g : Graph) (sign : Signedness) (width : UInt16) (span : Span) :
    (g.withInteger sign width span).IntegerCircle sign width g.nextId ⟨g.size + 2⟩
      ⟨g.size + 1⟩ where
  type_finished := ⟨_, node?_withInteger_type g sign width span, rfl, rfl, rfl⟩
  value_finished := ⟨_, node?_withInteger_value g sign width span, rfl, rfl, rfl⟩
  constant_finished := ⟨_, node?_withInteger_constant g sign width span, rfl, rfl, rfl⟩

namespace IntegerCircle

variable {sign sign' : Signedness} {width width' : UInt16}
  {type value constant type' value' constant' : NodeId}

theorem kept {c d : Context} (h : c.graph.IntegerCircle sign width type value constant)
    {replaced : Slot → Prop} (hspares : Spares replaced c d)
    (hkept : ∀ id ∈ [type, value, constant], ∀ index, ¬ replaced (id, index)) :
    d.graph.IntegerCircle sign width type value constant where
  type_finished := h.type_finished.kept hspares (hkept type (by simp))
  value_finished := h.value_finished.kept hspares (hkept value (by simp))
  constant_finished := h.constant_finished.kept hspares (hkept constant (by simp))

variable (h : g.IntegerCircle sign width type value constant)

include h

theorem integerDefault_eq : g.integerDefault type = .ok (some value) := by
  obtain ⟨node, hn, hkind, hchildren, _⟩ := h.type_finished
  simp only [integerDefault, read_of_node? hn, bind, Except.bind, hkind, Node.target?, hchildren]
  rfl

theorem parent?_eq (hown : OwnInv g) : g.parent? value = some type := by
  refine (hown.owner_iff type value).mpr ?_
  rw [h.type_finished.edges_eq]
  exact List.mem_singleton.mpr rfl

/-- The type of the value is held by the value itself. -/
theorem typeOf_eq (hclosed : Closed g) : g.typeOf value = .ok (some constant) := by
  obtain ⟨node, hn, hkind, hchildren, _⟩ := h.value_finished
  have hafter : g.TypedAfter 0 value constant :=
    .holds hn (by rw [hkind]; rfl) (by rw [hkind]; rfl) (by rw [Node.target?, hchildren]; rfl)
  obtain ⟨type?, hask, htyped⟩ := typeOf_eq_ok hclosed h.value_finished.mem
  rw [hask, (htyped constant).mpr ⟨0, hafter⟩]

theorem unqualified_eq : g.unqualified constant = .ok (some type) := by
  obtain ⟨node, hn, hkind, hchildren, _⟩ := h.constant_finished
  simp only [unqualified, read_of_node? hn, bind, Except.bind, hkind, Node.target?, hchildren]
  rfl

/-- There is no placeholder in the circle, and no edge leads out of it. -/
theorem resolved : g.Resolved type := by
  refine resolved_of_invariant (S := fun id => id ∈ [type, value, constant])
    (fun id hid _ => ?_) (by simp)
  simp only [List.mem_cons, List.not_mem_nil, or_false] at hid
  rcases hid with rfl | rfl | rfl
  · exact ⟨h.type_finished.isPlaceholder_eq, fun _ hlink =>
      by simp [h.type_finished.target_of_link hlink, Edge.target]⟩
  · exact ⟨h.value_finished.isPlaceholder_eq, fun _ hlink =>
      by simp [h.value_finished.target_of_link hlink, Edge.target]⟩
  · exact ⟨h.constant_finished.isPlaceholder_eq, fun _ hlink =>
      by simp [h.constant_finished.target_of_link hlink, Edge.target]⟩

/-- Step by step around the circle the nodes of one are like those of another. -/
theorem bisimilar (h' : g.IntegerCircle sign width type' value' constant') :
    g.Bisimilar type type' := by
  refine ⟨fun a b => (a, b) ∈ [(type, type'), (value, value'), (constant, constant')], ?_, by simp⟩
  intro a b hab
  simp only [List.mem_cons, Prod.mk.injEq, List.not_mem_nil, or_false] at hab
  rcases hab with ⟨rfl, rfl⟩ | ⟨rfl, rfl⟩ | ⟨rfl, rfl⟩
  · exact h.type_finished.alike h'.type_finished (.cons (by simp [Edge.target]) .nil)
  · exact h.value_finished.alike h'.value_finished (.cons (by simp [Edge.target]) .nil)
  · exact h.constant_finished.alike h'.constant_finished (.cons (by simp [Edge.target]) .nil)

theorem bisimilar_iff (h' : g.IntegerCircle sign' width' type' value' constant') :
    g.Bisimilar type type' ↔ sign = sign' ∧ width = width' := by
  constructor
  · intro hsame
    obtain ⟨x, y, hx, hy, hkind, _⟩ := isBisimulation_bisimilar _ _ hsame
    have htype := h.type_finished.kind?_eq
    have htype' := h'.type_finished.kind?_eq
    rw [kind?_of_node? hx, Option.some.injEq] at htype
    rw [kind?_of_node? hy, Option.some.injEq] at htype'
    rw [htype, htype'] at hkind
    exact TypeShape.integer.inj (Kind.type.inj hkind)
  · rintro ⟨rfl, rfl⟩
    exact h.bisimilar h'

theorem isEqual_eq (hclosed : Closed g)
    (h' : g.IntegerCircle sign' width' type' value' constant') :
    g.isEqual type type' = .ok (decide (sign = sign' ∧ width = width')) := by
  obtain ⟨answer, hask, hiff⟩ :=
    isEqual_eq_ok hclosed h.type_finished.mem h'.type_finished.mem
  rw [hask, Bool.eq_iff_iff.mpr (hiff.trans ((h.bisimilar_iff h').trans decide_eq_true_iff.symm))]

end IntegerCircle

/-! ## What an integer type has -/

/-- The integer type has a value of its own, which has this very type. -/
structure SelfMade (g : Graph) (sign : Signedness) (width : UInt16) (type value constant : NodeId) :
    Prop where
  kind : g.kind? type = some (.type (.integer sign width))
  /-- The default value of the type is a node that it owns. -/
  default : g.integerDefault type = .ok (some value)
  owner : g.parent? value = some type
  /-- It is zero, of the signedness and width of the type. -/
  zero : g.kind? value = some (.literal (.zero sign width))
  /-- Its own type is constant and holds a reference to the integer type. -/
  typeOf : g.typeOf value = .ok (some constant)
  constant_kind : g.kind? constant = some (.qualifiedType .onlyConst)
  holds : g.edges constant = [.ref type]
  unqualified : g.unqualified constant = .ok (some type)
  resolved : g.isResolved type = .ok true

theorem IntegerCircle.selfMade {sign : Signedness} {width : UInt16}
    {type value constant : NodeId} (h : g.IntegerCircle sign width type value constant)
    (hown : OwnInv g) : g.SelfMade sign width type value constant where
  kind := h.type_finished.kind?_eq
  default := h.integerDefault_eq
  owner := h.parent?_eq hown
  zero := h.value_finished.kind?_eq
  typeOf := h.typeOf_eq hown.closed
  constant_kind := h.constant_finished.kind?_eq
  holds := h.constant_finished.edges_eq
  unqualified := h.unqualified_eq
  resolved := (isResolved_eq_true_iff hown.closed h.type_finished.mem).mpr h.resolved

end Graph

/-! ## Making an integer type -/

theorem isIntegerWidth_iff (width : UInt16) :
    isIntegerWidth width = true ↔ width = 8 ∨ width = 16 ∨ width = 32 ∨ width = 64 := by
  simp [isIntegerWidth, integerWidths]

/-- The width is refused, there is no room, or the type is made. -/
theorem Build.integerType_ends (sign : Signedness) (width : UInt16) (span : Span) (c : Context) :
    isIntegerWidth width = false
        ∧ integerType sign width span c = .error (.node (.invalidIntegerWidth width)) c
      ∨ isIntegerWidth width = true
        ∧ (¬ c.graph.HasRoom 3 ∧ (∃ g : Graph, integerType sign width span c =
              .error (.full g.size) { c with graph := g })
          ∨ c.graph.HasRoom 3 ∧ integerType sign width span c =
              .ok c.graph.nextId { c with graph := c.graph.withInteger sign width span }) := by
  cases hw : isIntegerWidth width with
  | false => exact .inl ⟨rfl, integerType_eq_error hw span c⟩
  | true =>
    by_cases hroom : c.graph.HasRoom 3
    · exact .inr ⟨rfl, .inr ⟨hroom, integerType_eq_ok hw span hroom⟩⟩
    · obtain ⟨g, _, _, hrun⟩ := integerType_of_full hw span hroom
      exact .inr ⟨rfl, .inl ⟨hroom, g, hrun⟩⟩

theorem Build.integerType_eq_ok_iff {sign : Signedness} {width : UInt16} {span : Span}
    {c c' : Context} {type : NodeId} :
    integerType sign width span c = .ok type c' ↔ isIntegerWidth width = true ∧ c.graph.HasRoom 3
      ∧ type = c.graph.nextId ∧ c' = { c with graph := c.graph.withInteger sign width span } := by
  rcases integerType_ends sign width span c with ⟨hw, hrun⟩ | ⟨hw, ⟨hroom, g, hrun⟩ | ⟨hroom, hrun⟩⟩
  · simp [hrun, hw]
  · simp [hrun, hroom]
  · rw [hrun, EStateM.Result.ok.injEq]
    simp [hw, hroom, eq_comm]

/-- What comes of making an integer type. -/
structure MakesInteger (c : Context) (sign : Signedness) (width : UInt16) (span : Span) :
    Prop where
  /-- It succeeds for these widths and no others, if there is room for three nodes. -/
  succeeds_iff : (∃ type c', Build.integerType sign width span c = .ok type c') ↔
    (width = 8 ∨ width = 16 ∨ width = 32 ∨ width = 64) ∧ c.graph.HasRoom 3
  /-- Any other width is refused. -/
  refused_iff : (∃ reason d, Build.integerType sign width span c = .error (.node reason) d) ↔
    ¬ (width = 8 ∨ width = 16 ∨ width = 32 ∨ width = 64)
  /-- Without room for three nodes the arena fills up, for the widths that are not refused. -/
  stopped_iff : (∃ count d, Build.integerType sign width span c = .error (.full count) d) ↔
    (width = 8 ∨ width = 16 ∨ width = 32 ∨ width = 64) ∧ ¬ c.graph.HasRoom 3
  /-- Three nodes are added, all of them finished, and nothing owns the type. -/
  adds : ∀ type c', Build.integerType sign width span c = .ok type c' →
    c'.graph.size = c.graph.size + 3
      ∧ (∀ id ∈ c.graph, c'.graph.node? id = c.graph.node? id)
      ∧ (∀ id ∈ c'.graph, id ∉ c.graph → c'.graph.isFrozen id = true)
      ∧ type ∈ c'.graph ∧ type ∉ c.graph ∧ c'.graph.parent? type = none

theorem makesInteger (c : Context) (sign : Signedness) (width : UInt16) (span : Span) :
    MakesInteger c sign width span where
  succeeds_iff := by
    rw [← isIntegerWidth_iff]
    constructor
    · rintro ⟨type, c', hrun⟩
      obtain ⟨hw, hroom, _⟩ := Build.integerType_eq_ok_iff.mp hrun
      exact ⟨hw, hroom⟩
    · exact fun h => ⟨_, _, Build.integerType_eq_ok h.1 span h.2⟩
  refused_iff := by
    rw [← isIntegerWidth_iff]
    rcases Build.integerType_ends sign width span c with
      ⟨hw, hrun⟩ | ⟨hw, ⟨_, g, hrun⟩ | ⟨_, hrun⟩⟩ <;> simp [hrun, hw]
  stopped_iff := by
    rw [← isIntegerWidth_iff]
    rcases Build.integerType_ends sign width span c with
      ⟨hw, hrun⟩ | ⟨hw, ⟨hroom, g, hrun⟩ | ⟨hroom, hrun⟩⟩
    · simp [hrun, hw]
    · simp [hrun, hw, hroom]
    · simp [hrun, hroom]
  adds := by
    intro type c' hrun
    obtain ⟨_, _, rfl, rfl⟩ := Build.integerType_eq_ok_iff.mp hrun
    have hcircle := c.graph.circle_withInteger sign width span
    have hadded := c.graph.added_withInteger sign width span
    obtain ⟨hin, hout⟩ := (hadded c.graph.nextId).mpr (by simp)
    refine ⟨c.graph.size_withInteger sign width span,
      fun id hid => c.graph.node?_withInteger_of_mem sign width span hid, fun id hnew hold => ?_,
      hin, hout, ?_⟩
    · have hid := (hadded id).mp ⟨hnew, hold⟩
      simp only [List.mem_cons, List.not_mem_nil, or_false] at hid
      rcases hid with rfl | rfl | rfl
      · exact hcircle.type_finished.isFrozen_eq
      · exact hcircle.value_finished.isFrozen_eq
      · exact hcircle.constant_finished.isFrozen_eq
    · rw [Graph.parent?, c.graph.node?_withInteger_type sign width span]
      rfl

/-! ## Later on -/

/-- The node is an integer type that was made at some time, and no child has been replaced since at
any of the nodes that were added then. -/
def Undisturbed (d : Context) (sign : Signedness) (width : UInt16) (type : NodeId) : Prop :=
  ∃ c span c' replaced, Reachable c ∧ Build.integerType sign width span c = .ok type c'
    ∧ Replacing replaced c' d
    ∧ ∀ id ∈ c'.graph, id ∉ c.graph → ∀ index, ¬ replaced (id, index)

section Undisturbed

variable {d : Context} {sign : Signedness} {width : UInt16} {type : NodeId}

theorem after_makeInteger {c c' : Context} {span : Span}
    (hrun : Build.integerType sign width span c = .ok type c') :
    after (Command.make (.build (.integer sign width)) span).run c = c' := by
  simp only [after, Command.run, Creation.run, Blueprint.build, bind, EStateM.bind, hrun]
  rfl

theorem Reachable.integerType {c c' : Context} (hc : Reachable c) {span : Span}
    (hrun : Build.integerType sign width span c = .ok type c') : Reachable c' :=
  after_makeInteger hrun ▸ hc.command (.make (.build (.integer sign width)) span)

theorem Undisturbed.ownInv (h : Undisturbed d sign width type) : d.graph.OwnInv := by
  obtain ⟨c, span, c', replaced, hc, hrun, hreplacing, _⟩ := h
  exact changes_invariant Graph.ownInv_change (changes_graph (replacing_spares hreplacing).changes)
    (Graph.ownInv_reachable (hc.integerType hrun))

/-- **The circle stays as it was made.** -/
theorem Undisturbed.circle (h : Undisturbed d sign width type) :
    ∃ value constant, d.graph.IntegerCircle sign width type value constant := by
  obtain ⟨c, span, c', replaced, _, hrun, hreplacing, hkept⟩ := h
  obtain ⟨_, _, rfl, rfl⟩ := Build.integerType_eq_ok_iff.mp hrun
  have hcircle := c.graph.circle_withInteger sign width span
  refine ⟨_, _, Graph.IntegerCircle.kept hcircle (replacing_spares hreplacing) fun id hid => ?_⟩
  obtain ⟨hnew, hold⟩ := (c.graph.added_withInteger sign width span id).mpr hid
  exact hkept id hnew hold

/-- The slots at which the commands replace a child, in order. -/
def slotsReplaced : List Command → Context → List Slot
  | [], _ => []
  | cmd :: rest, c => (cmd.replaced? c).toList ++ slotsReplaced rest (after cmd.run c)

theorem replacing_runAll (cmds : List Command) : ∀ {replaced : Slot → Prop} {a b : Context},
    Replacing replaced a b → ∃ replaced', Replacing replaced' a (runAll cmds b)
      ∧ ∀ slot, replaced' slot → replaced slot ∨ slot ∈ slotsReplaced cmds b := by
  induction cmds with
  | nil => exact fun h => ⟨_, h, fun _ => .inl⟩
  | cons cmd rest ih =>
    intro replaced a b h
    obtain ⟨replaced', hreplacing, hslots⟩ := ih (.command cmd h)
    refine ⟨replaced', hreplacing, fun slot hslot => ?_⟩
    rw [slotsReplaced, List.mem_append, Option.mem_toList, ← or_assoc]
    exact hslots slot hslot

/-- A program of commands leaves an integer type as it makes it, if what it does later replaces no
child at the nodes that are added with the type. -/
theorem undisturbed_runAll (earlier later : List Command) (span : Span)
    (hw : isIntegerWidth width = true) (hroom : (runAll earlier .fresh).graph.HasRoom 3)
    (hkept : ∀ slot ∈ slotsReplaced later
        (runAll (earlier ++ [.make (.build (.integer sign width)) span]) .fresh),
      slot.1 ∈ (runAll (earlier ++ [.make (.build (.integer sign width)) span]) .fresh).graph →
        slot.1 ∈ (runAll earlier .fresh).graph) :
    Undisturbed (runAll (earlier ++ .make (.build (.integer sign width)) span :: later) .fresh) sign
      width (runAll earlier .fresh).graph.nextId := by
  have hrun : Build.integerType sign width span (runAll earlier .fresh) = _ :=
    Build.integerType_eq_ok hw span hroom
  have hmade := after_makeInteger hrun
  simp only [runAll, List.foldl_append, List.foldl_cons, List.foldl_nil] at hkept hmade ⊢
  rw [hmade] at hkept ⊢
  obtain ⟨replaced, hreplacing, hslots⟩ := replacing_runAll later (.refl _)
  refine ⟨_, span, _, replaced, leads_runAll earlier (.refl _), hrun, hreplacing, ?_⟩
  intro id hnew hold index hslot
  rcases hslots _ hslot with hnone | hslot
  · exact hnone
  · exact hold (hkept _ hslot hnew)

end Undisturbed

/-- **Integer types construct themselves.** In every context, an integer type can be made of the
four widths and of no other, if there is room for three nodes. Three nodes are added then, all of
them finished, and nothing owns the type. Whatever calls are made later, if they do not replace a
child of these three, the type owns a value, which is zero and of its signedness and width; the
value's own type is constant and refers to the integer type; and the integer type is resolved. Two
types that were made so are equal if and only if they have the same signedness and width, whenever
they were made and wherever they come from. -/
theorem integer_types_construct_themselves :
    (∀ c sign width span, MakesInteger c sign width span)
      ∧ (∀ d sign width type, Undisturbed d sign width type →
        ∃ value constant, d.graph.SelfMade sign width type value constant)
      ∧ ∀ d sign width type sign' width' type', Undisturbed d sign width type →
        Undisturbed d sign' width' type' →
          d.graph.isEqual type type' = .ok (decide (sign = sign' ∧ width = width')) := by
  refine ⟨makesInteger, fun d sign width type h => ?_, ?_⟩
  · obtain ⟨value, constant, hcircle⟩ := h.circle
    exact ⟨value, constant, hcircle.selfMade h.ownInv⟩
  · intro d sign width type sign' width' type' h h'
    obtain ⟨value, constant, hcircle⟩ := h.circle
    obtain ⟨value', constant', hcircle'⟩ := h'.circle
    exact hcircle.isEqual_eq h.ownInv.closed hcircle'

/-- Three integer types, of which the first is the type of a field at first. In the end the field
only refers to it. -/
def integersInUse : List Command := [
  .make (.build (.integer .signed 32)) ⟨3, 6⟩,
  .make (.build (.node (.qualifiedType .none) [.owned ⟨0⟩])) .dummy,
  .make (.build (.node (.declaration (.field (.text "count"))) [.owned ⟨3⟩])) .dummy,
  .make (.build (.integer .unsigned 32)) ⟨9, 12⟩,
  .make (.build (.integer .signed 32)) ⟨14, 17⟩,
  .make (.build (.node (.qualifiedType .none) [.ref ⟨0⟩])) .dummy,
  .replace ⟨4⟩ 0 (.owned ⟨11⟩)]

/-- The first type has come to be owned, and the replacement was made at the field, so that none of
the three types is disturbed. The first equals the third and not the second. -/
theorem integer_types_construct_themselves_integersInUse :
    let d := runAll integersInUse .fresh
    Undisturbed d .signed 32 ⟨0⟩ ∧ Undisturbed d .unsigned 32 ⟨5⟩ ∧ Undisturbed d .signed 32 ⟨8⟩
      ∧ d.graph.parent? ⟨0⟩ = some ⟨3⟩ ∧ d.graph.edge? ⟨4⟩ 0 = some (.owned ⟨11⟩)
      ∧ (∃ value constant, d.graph.SelfMade .signed 32 ⟨0⟩ value constant)
      ∧ d.graph.isEqual ⟨0⟩ ⟨8⟩ = .ok true ∧ d.graph.isEqual ⟨0⟩ ⟨5⟩ = .ok false := by
  have hfirst : Undisturbed (runAll integersInUse .fresh) .signed 32 ⟨0⟩ :=
    undisturbed_runAll [] (integersInUse.drop 1) ⟨3, 6⟩ rfl (by decide +kernel)
      (by decide +kernel)
  have hsecond : Undisturbed (runAll integersInUse .fresh) .unsigned 32 ⟨5⟩ := by
    have hid : (runAll (integersInUse.take 3) .fresh).graph.nextId = ⟨5⟩ := by decide +kernel
    exact hid ▸ undisturbed_runAll (integersInUse.take 3) (integersInUse.drop 4) ⟨9, 12⟩ rfl
      (by decide +kernel) (by decide +kernel)
  have hthird : Undisturbed (runAll integersInUse .fresh) .signed 32 ⟨8⟩ := by
    have hid : (runAll (integersInUse.take 4) .fresh).graph.nextId = ⟨8⟩ := by decide +kernel
    exact hid ▸ undisturbed_runAll (integersInUse.take 4) (integersInUse.drop 5) ⟨14, 17⟩ rfl
      (by decide +kernel) (by decide +kernel)
  obtain ⟨-, hmade, hequal⟩ := integer_types_construct_themselves
  exact ⟨hfirst, hsecond, hthird, by decide +kernel, by decide +kernel, hmade _ _ _ _ hfirst,
    hequal _ _ _ _ _ _ _ hfirst hthird, hequal _ _ _ _ _ _ _ hfirst hsecond⟩

/-- The width alone does not decide: in a full arena there is no room for a type of any width. -/
theorem exists_integer_stopped :
    ¬ ∀ c, Reachable c → ∀ sign width span,
      (∃ type c', Build.integerType sign width span c = .ok type c') ↔
        width = 8 ∨ width = 16 ∨ width = 32 ∨ width = 64 := by
  intro h
  obtain ⟨c, hc, hfull⟩ := exists_full
  obtain ⟨type, c', hrun⟩ := (h c hc .signed 32 .dummy).mpr (by simp)
  obtain ⟨_, hroom, _⟩ := Build.integerType_eq_ok_iff.mp hrun
  exact hfull (hroom.mono (by decide))

end SyntaxGraph
