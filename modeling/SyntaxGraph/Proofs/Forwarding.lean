import SyntaxGraph.Proofs.Interchange
import SyntaxGraph.Proofs.Preorder

/-!
# Where a chain of expressions leads

A literal expression, a grouping, an assignment and a conditional take their type
from a child. Following them is a matter of steps, and the steps know nothing of
nodes seen before. The question for a type does remember such nodes, and this
module says that it may: it gives the type at the end of the chain, and finds
none only where there is none.

There is none if the chain runs in a circle or comes to a node whose slot is
still empty. Both need something unfinished or a reference. From a finished node
an owned edge leads to a finished node further down the tree, and no tree is
endless. So a finished value without a type has a reference on its chain.
-/

namespace SyntaxGraph

open Relation

/-! ## The slot for the type -/

/-- The slot that a value takes its type from comes before the tail of its layout. -/
theorem Kind.typeSlot_lt {ν : Type} {kind : Kind ν} (h : kind.producesValue = true) :
    kind.forwards?.getD 0 < kind.layout.fixed.length := by
  cases kind with
  | literal value => cases value <;> exact Nat.zero_lt_one
  | declaration what => cases what <;> simp [layout, Declaration.layout, Layout.exactly, forwards?]
  | expression shape =>
    cases shape <;>
      simp [layout, Expression.layout, Layout.exactly, forwards?, Expression.forwards?]
  | _ => simp [producesValue] at h

/-- The child that a node takes its type from is a value as well. -/
theorem Kind.producesValue_of_forwards {ν μ : Type} {kind : Kind ν} {slot : Nat} {child : Kind μ}
    (h : kind.forwards? = some slot) (hchild : kind.layout.slot slot = some child.category) :
    child.producesValue = true := by
  have hcategory : child.category = .literal ∨ child.category = .expression := by
    cases kind with
    | expression shape =>
      cases shape with
      | literal => cases h; exact .inl (Option.some.inj hchild).symm
      | grouping => cases h; exact .inr (Option.some.inj hchild).symm
      | assign => cases h; exact .inr (Option.some.inj hchild).symm
      | ternary => cases h; exact .inr (Option.some.inj hchild).symm
      | _ => simp [forwards?, Expression.forwards?] at h
    | _ => simp [forwards?] at h
  cases child with
  | literal value => rfl
  | expression shape => rfl
  | _ => simp [category] at hcategory

/-- A finished node has a child in every slot before the tail of its layout. -/
theorem Layout.lt_of_acceptsLength {l : Layout} {count index : Nat}
    (hcount : l.acceptsLength count = true) (hindex : index < l.fixed.length) : index < count := by
  obtain ⟨fixed, tail⟩ := l
  refine Nat.lt_of_lt_of_le hindex ?_
  cases tail with
  | none =>
    have : count = fixed.length := by simpa [acceptsLength] using hcount
    exact Nat.le_of_eq this.symm
  | optional category =>
    have : count = fixed.length ∨ count = fixed.length + 1 := by simpa [acceptsLength] using hcount
    dsimp only
    omega
  | many category => simpa [acceptsLength] using hcount

namespace Graph

variable {g : Graph}

/-! ## Steps along the chain -/

/-- The edge to the child that a node takes its type from, if it takes it from a child. -/
def forwarding? (g : Graph) (id : NodeId) : Option Edge :=
  (g.node? id).bind fun node => node.kind.forwards?.bind fun slot => node.children[slot]?

/-- The first node takes its type from the second one. -/
def Forwards (g : Graph) (id next : NodeId) : Prop :=
  ∃ e, g.forwarding? id = some e ∧ e.target = next

/-- The node has a type of its own. -/
def Bears (g : Graph) (id type : NodeId) : Prop :=
  ∃ node, g.node? id = some node ∧ node.kind.producesValue = true ∧ node.kind.forwards? = none
    ∧ node.target? 0 = some type

theorem forwarding?_eq_some {id : NodeId} {e : Edge} :
    g.forwarding? id = some e ↔ ∃ node slot, g.node? id = some node
      ∧ node.kind.forwards? = some slot ∧ node.children[slot]? = some e := by
  simp [forwarding?, Option.bind_eq_some_iff]

theorem typedAfter_zero_iff {id type : NodeId} : g.TypedAfter 0 id type ↔ g.Bears id type := by
  constructor
  · intro h
    cases h with
    | holds hn hvalue hown htype => exact ⟨_, hn, hvalue, hown, htype⟩
  · rintro ⟨node, hn, hvalue, hown, htype⟩
    exact .holds hn hvalue hown htype

theorem typedAfter_succ_iff {n : Nat} {id type : NodeId} :
    g.TypedAfter (n + 1) id type ↔ ∃ next, g.Forwards id next ∧ g.TypedAfter n next type := by
  constructor
  · intro h
    cases h with
    | forwards hn hforwards hnext hafter =>
      obtain ⟨e, he, rfl⟩ := Option.map_eq_some_iff.mp hnext
      exact ⟨_, ⟨e, forwarding?_eq_some.mpr ⟨_, _, hn, hforwards, he⟩, rfl⟩, hafter⟩
  · rintro ⟨_, ⟨e, hby, rfl⟩, hafter⟩
    obtain ⟨node, slot, hn, hforwards, he⟩ := forwarding?_eq_some.mp hby
    refine .forwards hn hforwards ?_ hafter
    rw [Node.target?, he, Option.map_some]

/-- A node that forwards is one step further from the type than the next one. -/
theorem TypedAfter.next {n : Nat} {id next type : NodeId} (h : g.TypedAfter n id type)
    (hstep : g.Forwards id next) : ∃ m, n = m + 1 ∧ g.TypedAfter m next type := by
  obtain ⟨e, hby, rfl⟩ := hstep
  obtain ⟨node, slot, hn, hforwards, he⟩ := forwarding?_eq_some.mp hby
  cases h with
  | holds hn' _ hown _ =>
    obtain rfl := Option.some.inj (hn.symm.trans hn')
    rw [hown] at hforwards
    exact absurd hforwards (by simp)
  | @forwards m slot' _ next' _ _ hn' hforwards' hnext' hafter =>
    obtain rfl := Option.some.inj (hn.symm.trans hn')
    obtain rfl := Option.some.inj (hforwards.symm.trans hforwards')
    rw [Node.target?, he, Option.map_some, Option.some.injEq] at hnext'
    exact ⟨m, rfl, hnext' ▸ hafter⟩

/-- **A node has the type that the chain from it leads to.** -/
theorem typed_iff {id type : NodeId} :
    g.Typed id type ↔ ∃ last, ReflTransGen g.Forwards id last ∧ g.Bears last type := by
  constructor
  · rintro ⟨n, h⟩
    induction n generalizing id with
    | zero => exact ⟨id, .refl, typedAfter_zero_iff.mp h⟩
    | succ n ih =>
      obtain ⟨next, hstep, hafter⟩ := typedAfter_succ_iff.mp h
      obtain ⟨last, hchain, hbears⟩ := ih hafter
      exact ⟨last, .head hstep hchain, hbears⟩
  · rintro ⟨last, hchain, hbears⟩
    induction hchain using ReflTransGen.head_induction_on with
    | refl => exact ⟨0, typedAfter_zero_iff.mpr hbears⟩
    | head hstep _ ih =>
      obtain ⟨n, hafter⟩ := ih
      exact ⟨n + 1, typedAfter_succ_iff.mpr ⟨_, hstep, hafter⟩⟩

/-- Further on along the chain the type is the same, and no further away. -/
theorem TypedAfter.along {n : Nat} {id last type : NodeId} (h : g.TypedAfter n id type)
    (hchain : ReflTransGen g.Forwards id last) : ∃ m ≤ n, g.TypedAfter m last type := by
  induction hchain with
  | refl => exact ⟨n, Nat.le_refl n, h⟩
  | tail _ hstep ih =>
    obtain ⟨m, hle, hm⟩ := ih
    obtain ⟨k, rfl, hk⟩ := hm.next hstep
    exact ⟨k, by omega, hk⟩

/-- **A chain that leads into a circle has no type at its end.** -/
theorem not_typed_of_circle {id m type : NodeId} (hchain : ReflTransGen g.Forwards id m)
    (hcircle : TransGen g.Forwards m m) : ¬ g.Typed id type := by
  rintro ⟨n, h⟩
  obtain ⟨k, _, hm⟩ := h.along hchain
  obtain ⟨next, hstep, hback⟩ := TransGen.head'_iff.mp hcircle
  -- one round on, the type of the same node would be nearer
  obtain ⟨l, rfl, hnext⟩ := hm.next hstep
  obtain ⟨l', hle, hagain⟩ := hnext.along hback
  have : l + 1 = l' := hm.length_unique hagain
  omega

/-! ## The shape behind the type -/

/-- The shape that a qualified type wraps, if it has a child yet. -/
inductive Wraps (g : Graph) (type : NodeId) : Option (TypeShape Name) → Prop where
  | nothing : g.edge? type 0 = none → Wraps g type none
  | shape {e : Edge} {shape : TypeShape Name} : g.edge? type 0 = some e →
    g.kind? e.target = some (.type shape) → Wraps g type (some shape)

/-- From a qualified type the question for the shape goes no further than to its child. -/
theorem valueTypeWithin_wraps (hlaid : LaidOut g) {type : NodeId} {node : Node}
    {qualifiers : Qualifiers} (hn : g.node? type = some node)
    (hkind : node.kind = .qualifiedType qualifiers) :
    ∃ shape?, (∀ steps, g.valueTypeWithin (steps + 1) type = .ok shape?) ∧ g.Wraps type shape? := by
  have hedge := edge?_of_node? hn 0
  simp only [valueTypeWithin_of_node? _ hn, hkind, Node.target?]
  cases he : node.children[0]? with
  | none => exact ⟨none, fun _ => rfl, .nothing (hedge.trans he)⟩
  | some e =>
    rw [he] at hedge
    obtain ⟨child, hchild, hslot⟩ := hlaid.fits type node.kind (kind?_of_node? hn) 0 e hedge
    have hcategory : child.kind.category = .type := by
      rw [hkind] at hslot
      exact (Option.some.inj hslot).symm
    cases hshape : child.kind with
    | type shape =>
      refine ⟨some shape, fun _ => ?_, .shape hedge (hshape ▸ kind?_of_node? hchild)⟩
      simp [read_of_node? hchild, hshape, Kind.type?, Except.map]
    | _ => simp [hshape, Kind.category] at hcategory

/-- **The nodes seen before never change the answer.** The question for the type of a node always
has an answer. It is the type that the last node bears of the chain of those that forward, and if
there is no such last node the answer is that there is none; so it is wherever the chain leads into
a circle. A type that is found is a qualified type. Hence the question for the shape of the value
ends after two steps, with what the type wraps or, as long as the type has no child, with
nothing. -/
theorem type_at_end_of_chain {c : Context} (hc : Reachable c) (id : NodeId)
    (hid : id ∈ c.graph) :
    ∃ type?, c.graph.typeOf id = .ok type?
      ∧ (∀ type, type? = some type ↔
          ∃ last, ReflTransGen c.graph.Forwards id last ∧ c.graph.Bears last type)
      ∧ (∀ m, ReflTransGen c.graph.Forwards id m → TransGen c.graph.Forwards m m → type? = none)
      ∧ ∀ type, type? = some type →
          (∃ qualifiers, c.graph.kind? type = some (.qualifiedType qualifiers))
          ∧ ∃ shape?, c.graph.Wraps type shape? ∧ c.graph.valueType id = .ok shape?
              ∧ ∀ steps, c.graph.valueTypeWithin (steps + 2) id = .ok shape? := by
  have hlaid := laidOut_reachable hc
  obtain ⟨type?, hask, hiff⟩ := typeOf_eq_ok (closed_reachable hc) hid
  refine ⟨type?, hask, fun type => (hiff type).trans typed_iff, fun m hchain hcircle => ?_, ?_⟩
  · refine Option.eq_none_iff_forall_ne_some.mpr fun type htype => ?_
    exact not_typed_of_circle hchain hcircle ((hiff type).mp htype)
  rintro type rfl
  have htyped : c.graph.Typed id type := (hiff type).mp rfl
  obtain ⟨found, qualifiers, hfound, hkind⟩ := htyped.qualifiedType hlaid
  obtain ⟨shape?, hshape, hwraps⟩ := valueTypeWithin_wraps hlaid hfound hkind
  -- the node is a value, so the first step is to its type
  have hsteps : ∀ steps, c.graph.valueTypeWithin (steps + 2) id = .ok shape? := by
    intro steps
    obtain ⟨node, hn⟩ := mem_iff_node?.mp hid
    have hvalue := htyped.producesValue hn
    rw [valueTypeWithin_of_node? _ hn, hask]
    cases hnode : node.kind with
    | literal value => exact hshape steps
    | expression shape => exact hshape steps
    | declaration what => exact hshape steps
    | _ => simp [hnode, Kind.producesValue] at hvalue
  obtain ⟨steps, hsize⟩ : ∃ steps, c.graph.size = steps + 1 :=
    ⟨c.graph.size - 1, by have := Nat.zero_lt_of_lt (mem_def.mp hid); omega⟩
  refine ⟨⟨qualifiers, by rw [kind?_of_node? hfound, hkind]⟩, shape?, hwraps, ?_, hsteps⟩
  rw [valueType, hsize]
  exact hsteps steps

/-- Expressions that forward in three ways, to each other and to literals: groupings around
themselves, an assignment below a conditional, a conditional that refers to the groupings, and a
literal with a type that was only begun. -/
def crossroads : List Command := loopedGroupings ++ [
  .make (.build (.node (.expression .assign) [.owned ⟨9⟩, .owned ⟨10⟩])) .dummy,
  .make (.build (.node (.expression .ternary) [.ref ⟨9⟩, .owned ⟨11⟩, .ref ⟨0⟩])) .dummy,
  .make (.begin (.qualifiedType .none)) .dummy,
  .make (.build (.node (.literal .null) [.ref ⟨13⟩])) .dummy,
  .make (.build (.node (.expression .ternary) [.ref ⟨9⟩, .ref ⟨1⟩, .ref ⟨9⟩])) .dummy]

/-- The first conditional has the type of a literal three steps on. The type that was begun wraps
nothing. The second conditional leads into the circle. -/
theorem type_at_end_of_chain_crossroads :
    Reachable (runAll crossroads .fresh)
      ∧ (∃ last, ReflTransGen (runAll crossroads .fresh).graph.Forwards ⟨12⟩ last
        ∧ (runAll crossroads .fresh).graph.Bears last ⟨4⟩)
      ∧ (runAll crossroads .fresh).graph.Wraps ⟨4⟩ (some .null)
      ∧ (runAll crossroads .fresh).graph.Wraps ⟨13⟩ none
      ∧ ∀ type last, ReflTransGen (runAll crossroads .fresh).graph.Forwards ⟨15⟩ last →
        ¬ (runAll crossroads .fresh).graph.Bears last type := by
  have hreach : Reachable (runAll crossroads .fresh) := leads_runAll _ (.refl _)
  have h12 : (runAll crossroads .fresh).graph.typeOf ⟨12⟩ = .ok (some ⟨4⟩) := by decide +kernel
  have h14 : (runAll crossroads .fresh).graph.typeOf ⟨14⟩ = .ok (some ⟨13⟩) := by decide +kernel
  have h15 : (runAll crossroads .fresh).graph.typeOf ⟨15⟩ = .ok none := by decide +kernel
  obtain ⟨_, htype, hiff, _, hshape⟩ := type_at_end_of_chain hreach ⟨12⟩ (by decide +kernel)
  obtain rfl := Except.ok.inj (h12.symm.trans htype)
  obtain ⟨_, _, hwraps, hvalue, _⟩ := hshape ⟨4⟩ rfl
  have hnull : (runAll crossroads .fresh).graph.valueType ⟨12⟩ = .ok (some .null) := by
    decide +kernel
  obtain rfl := Except.ok.inj (hnull.symm.trans hvalue)
  obtain ⟨_, htype', _, _, hshape'⟩ := type_at_end_of_chain hreach ⟨14⟩ (by decide +kernel)
  obtain rfl := Except.ok.inj (h14.symm.trans htype')
  obtain ⟨_, _, hwraps', hvalue', _⟩ := hshape' ⟨13⟩ rfl
  have hnothing : (runAll crossroads .fresh).graph.valueType ⟨14⟩ = .ok none := by decide +kernel
  obtain rfl := Except.ok.inj (hnothing.symm.trans hvalue')
  obtain ⟨_, htype'', hiff'', _⟩ := type_at_end_of_chain hreach ⟨15⟩ (by decide +kernel)
  obtain rfl := Except.ok.inj (h15.symm.trans htype'')
  refine ⟨hreach, (hiff ⟨4⟩).mp rfl, hwraps, hwraps', fun type last hchain hbears => ?_⟩
  exact absurd ((hiff'' type).mpr ⟨last, hchain, hbears⟩) (by simp)

/-! ## Finished values -/

/-- In a tree of finished nodes a chain goes down to a type, unless a reference leads it away. -/
theorem typed_or_ref (hown : OwnInv g) (hlaid : LaidOut g) (depth : Nat) :
    ∀ {id : NodeId} {node : Node}, g.Shallow depth id → g.node? id = some node →
      node.frozen = true → node.kind.producesValue = true →
        (∃ type, g.Typed id type)
          ∨ ∃ m target, ReflTransGen g.Forwards id m ∧ g.forwarding? m = some (.ref target) := by
  induction depth with
  | zero => exact fun h => h.elim
  | succ depth ih =>
    intro id node hshallow hn hfrozen hvalue
    -- a finished node has a child to take its type from
    have hkind := kind?_of_node? hn
    have hcount : node.kind.layout.acceptsLength node.children.length = true :=
      edges_of_node? hn ▸ hlaid.counted id node.kind hkind (by rw [isFrozen, hn]; exact hfrozen)
    have hlt := Layout.lt_of_acceptsLength hcount (Kind.typeSlot_lt hvalue)
    cases hforwards : node.kind.forwards? with
    | none =>
      rw [hforwards, Option.getD_none] at hlt
      have htype : node.target? 0 = some node.children[0].target := by
        rw [Node.target?, List.getElem?_eq_getElem hlt, Option.map_some]
      exact .inl ⟨_, 0, .holds hn hvalue hforwards htype⟩
    | some slot =>
      rw [hforwards, Option.getD_some] at hlt
      have hslot : node.children[slot]? = some node.children[slot] := List.getElem?_eq_getElem hlt
      have hby : g.forwarding? id = some node.children[slot] :=
        forwarding?_eq_some.mpr ⟨node, slot, hn, hforwards, hslot⟩
      have hedge : g.edge? id slot = some node.children[slot] :=
        (edge?_of_node? hn slot).trans hslot
      cases he : node.children[slot] with
      | ref target => exact .inr ⟨id, target, .refl, he ▸ hby⟩
      | owned child =>
        rw [he] at hby hedge
        have howns : g.Owns id child := hown.owns_of_edge? hedge
        obtain ⟨next, hnext, hfits⟩ := hlaid.fits id node.kind hkind slot _ hedge
        have hfrozen' : next.frozen = true := by
          have := hown.frozen id child (mem_edges_iff.mpr ⟨slot, hedge⟩)
          rwa [isFrozen, show g.node? child = some next from hnext] at this
        have hstep : g.Forwards id child := ⟨_, hby, rfl⟩
        rcases ih (hshallow child (hown.mem_ownedChildren.mpr howns)) hnext hfrozen'
          (Kind.producesValue_of_forwards hforwards hfits) with ⟨type, n, h⟩ | ⟨m, target, h, href⟩
        · exact .inl ⟨type, n + 1, typedAfter_succ_iff.mpr ⟨child, hstep, h⟩⟩
        · exact .inr ⟨m, target, .head hstep h, href⟩

/-- **A finished value has a type unless a reference gets in the way.** If there is none, some node
on the chain forwards by a reference; if all those on the chain forward by owned edges, there is
one. -/
theorem finished_values_typed {c : Context} (hc : Reachable c) {id : NodeId} {node : Node}
    (hn : c.graph.node? id = some node) (hfrozen : node.frozen = true)
    (hvalue : node.kind.producesValue = true) :
    (c.graph.typeOf id = .ok none →
        ∃ m target, ReflTransGen c.graph.Forwards id m ∧ c.graph.forwarding? m = some (.ref target))
      ∧ ((∀ m e, ReflTransGen c.graph.Forwards id m → c.graph.forwarding? m = some e →
            e.isOwned = true) →
          ∃ type, c.graph.typeOf id = .ok (some type)) := by
  have hown := ownInv_reachable hc
  have hid : id ∈ c.graph := mem_iff_node?.mpr ⟨node, hn⟩
  obtain ⟨type?, hask, hiff⟩ := typeOf_eq_ok hown.closed hid
  rcases typed_or_ref hown (laidOut_reachable hc) _ (hown.shallow hid) hn hfrozen hvalue with
    ⟨type, htyped⟩ | ⟨m, target, hchain, href⟩
  · obtain rfl := (hiff type).mpr htyped
    exact ⟨fun hnone => absurd (hask.symm.trans hnone) (by simp), fun _ => ⟨type, hask⟩⟩
  · refine ⟨fun _ => ⟨m, target, hchain, href⟩, fun hall => ?_⟩
    exact absurd (hall m _ hchain href) (by simp [Edge.isOwned])

/-- The edges that the first conditional forwards by are owned, the whole chain along, and it has a
type. The second one has none, and the first edge on its chain is a reference already. -/
theorem finished_values_typed_crossroads :
    Reachable (runAll crossroads .fresh)
      ∧ (∃ type, (runAll crossroads .fresh).graph.typeOf ⟨12⟩ = .ok (some type))
      ∧ (runAll crossroads .fresh).graph.typeOf ⟨15⟩ = .ok none
      ∧ ∃ m target, ReflTransGen (runAll crossroads .fresh).graph.Forwards ⟨15⟩ m
        ∧ (runAll crossroads .fresh).graph.forwarding? m = some (.ref target) := by
  have hreach : Reachable (runAll crossroads .fresh) := leads_runAll _ (.refl _)
  have h12 : (runAll crossroads .fresh).graph.node? ⟨12⟩ = some ⟨.expression .ternary, .dummy,
      [.ref ⟨9⟩, .owned ⟨11⟩, .ref ⟨0⟩], none, true⟩ := by decide +kernel
  have h15 : (runAll crossroads .fresh).graph.node? ⟨15⟩ = some ⟨.expression .ternary, .dummy,
      [.ref ⟨9⟩, .ref ⟨1⟩, .ref ⟨9⟩], none, true⟩ := by decide +kernel
  have hnone : (runAll crossroads .fresh).graph.typeOf ⟨15⟩ = .ok none := by decide +kernel
  have hstep : ∀ m ∈ ([⟨12⟩, ⟨11⟩, ⟨9⟩, ⟨5⟩] : List NodeId),
      ∀ e ∈ (runAll crossroads .fresh).graph.forwarding? m,
        e.isOwned = true ∧ e.target ∈ ([⟨12⟩, ⟨11⟩, ⟨9⟩, ⟨5⟩] : List NodeId) := by decide +kernel
  have hchain : ∀ m, ReflTransGen (runAll crossroads .fresh).graph.Forwards ⟨12⟩ m →
      m ∈ ([⟨12⟩, ⟨11⟩, ⟨9⟩, ⟨5⟩] : List NodeId) := by
    intro m h
    induction h with
    | refl => decide
    | tail _ hlast ih =>
      obtain ⟨e, he, rfl⟩ := hlast
      exact (hstep _ ih e he).2
  exact ⟨hreach, (finished_values_typed hreach h12 rfl rfl).2 fun m e h he =>
    (hstep m (hchain m h) e he).1, hnone, (finished_values_typed hreach h15 rfl rfl).1 hnone⟩

end Graph

end SyntaxGraph
