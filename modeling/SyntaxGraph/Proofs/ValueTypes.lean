import SyntaxGraph.Typing
import SyntaxGraph.Proofs.Layouts

/-!
# What the type of a node is

Following a chain of expressions that take their type from a child, the question
for a type gives up when it comes to a node again. It gives up on nothing that
has a type: such a chain is of a certain length, which is one less for every node
further on, so no node is on it twice. Hence a node has a type exactly if its
chain ends, however the question is asked.

Behind the type there is a shape. Layouts see to it that the type of a value is a
qualified type, so the shape is never more than two steps away.
-/

namespace SyntaxGraph

/-- The slot whose child a node takes its type from, if it takes it from a child. -/
def Kind.forwards? {ν : Type} : Kind ν → Option Nat
  | .expression shape => shape.forwards?
  | _ => none

/-- The first slot of a node that has a type of its own is the place for it. -/
theorem Kind.slot_zero {ν : Type} {kind : Kind ν} (hvalue : kind.producesValue = true)
    (hown : kind.forwards? = none) : kind.layout.slot 0 = some .qualifiedType := by
  cases kind with
  | type shape => simp [producesValue] at hvalue
  | qualifiedType qualifiers => simp [producesValue] at hvalue
  | statement shape => simp [producesValue] at hvalue
  | literal value => cases value <;> rfl
  | declaration what => cases what <;> rfl
  | expression shape =>
    cases shape with
    | literal => simp [forwards?, Expression.forwards?] at hown
    | grouping => simp [forwards?, Expression.forwards?] at hown
    | assign => simp [forwards?, Expression.forwards?] at hown
    | ternary => simp [forwards?, Expression.forwards?] at hown
    | _ => rfl

namespace Graph

variable {g : Graph}

/-! ## The chain -/

/-- The type of the first node is found so many children further on. -/
inductive TypedAfter (g : Graph) : Nat → NodeId → NodeId → Prop where
  | holds {id type : NodeId} {node : Node} : g.node? id = some node →
    node.kind.producesValue = true → node.kind.forwards? = none → node.target? 0 = some type →
    TypedAfter g 0 id type
  | forwards {n slot : Nat} {id next type : NodeId} {node : Node} : g.node? id = some node →
    node.kind.forwards? = some slot → node.target? slot = some next → TypedAfter g n next type →
    TypedAfter g (n + 1) id type

/-- The node has the type. -/
def Typed (g : Graph) (id type : NodeId) : Prop := ∃ n, g.TypedAfter n id type

/-- The chain from a node has one length. -/
theorem TypedAfter.length_unique {n m : Nat} {id type type' : NodeId} (h : g.TypedAfter n id type)
    (h' : g.TypedAfter m id type') : n = m := by
  induction h generalizing m with
  | holds hn _ hown _ =>
    cases h' with
    | holds => rfl
    | forwards hn' hforwards _ _ =>
      obtain rfl := Option.some.inj (hn.symm.trans hn')
      rw [hown] at hforwards
      exact absurd hforwards (by simp)
  | forwards hn hforwards hnext _ ih =>
    cases h' with
    | holds hn' _ hown _ =>
      obtain rfl := Option.some.inj (hn.symm.trans hn')
      rw [hown] at hforwards
      exact absurd hforwards (by simp)
    | forwards hn' hforwards' hnext' hrest =>
      obtain rfl := Option.some.inj (hn.symm.trans hn')
      obtain rfl := Option.some.inj (hforwards.symm.trans hforwards')
      obtain rfl := Option.some.inj (hnext.symm.trans hnext')
      rw [ih hrest]

/-! ## The question for the type -/

/-- One step along the chain. -/
theorem typeFrom_of_node? {id : NodeId} {node : Node} {seen : NodeSet} (hs : id ∉ seen)
    (hn : g.node? id = some node) :
    g.typeFrom id seen =
      match node.kind.forwards? with
      | some slot =>
        match node.target? slot with
        | none => .ok none
        | some next => g.typeFrom next (seen.insert id)
      | none => .ok (if node.kind.producesValue then node.target? 0 else none) := by
  rw [typeFrom, dif_neg hs]
  split
  · rename_i hnone
    exact absurd (hnone.symm.trans hn) (by simp)
  · rename_i found hfound
    obtain rfl := Option.some.inj (hfound.symm.trans hn)
    cases found.kind with
    | expression shape =>
      simp only [Kind.forwards?, Kind.producesValue, if_true]
      cases shape.forwards? with
      | none => rfl
      | some slot => cases found.target? slot <;> rfl
    | _ => rfl

theorem typeFrom_none {id : NodeId} {seen : NodeSet} (hs : id ∉ seen) (hn : g.node? id = none) :
    g.typeFrom id seen = .error (.stray id) := by
  rw [typeFrom, dif_neg hs]
  split
  · rfl
  · rename_i found hfound
    exact absurd (hfound.symm.trans hn) (by simp)

theorem target_mem (hclosed : Closed g) {id target : NodeId} {node : Node} {index : Nat}
    (hn : g.node? id = some node) (h : node.target? index = some target) : target ∈ g := by
  obtain ⟨e, he, rfl⟩ := Option.map_eq_some_iff.mp h
  exact hclosed id e (edges_of_node? hn ▸ List.mem_of_getElem? he)

/-- A chain that meets no node twice is followed to its end. -/
theorem chain_induction {motive : NodeId → NodeSet → Prop}
    (step : ∀ id seen, (∀ node slot next, id ∉ seen → g.node? id = some node →
      node.kind.forwards? = some slot → node.target? slot = some next →
      motive next (seen.insert id)) → motive id seen) (id : NodeId) (seen : NodeSet) :
    motive id seen :=
  step id seen fun _ _ next _ _ _ _ => chain_induction step next (seen.insert id)
termination_by g.unseen seen fun _ => 1
decreasing_by
  rename_i node _ hs hn _ _
  have := unseen_insert (fun _ => 1) (mem_iff_node?.mpr ⟨node, hn⟩) hs
  omega

/-- The question ends, and a type that it finds is the type of the node. -/
theorem typeFrom_eq_ok (hclosed : Closed g) (id : NodeId) (seen : NodeSet) : id ∈ g →
    ∃ type?, g.typeFrom id seen = .ok type? ∧ ∀ type, type? = some type → g.Typed id type := by
  induction id, seen using chain_induction (g := g) with
  | step id seen ih =>
    intro hid
    by_cases hs : id ∈ seen
    · exact ⟨none, by rw [typeFrom, dif_pos hs], nofun⟩
    obtain ⟨node, hn⟩ := mem_iff_node?.mp hid
    rw [typeFrom_of_node? hs hn]
    cases hforwards : node.kind.forwards? with
    | none =>
      refine ⟨_, rfl, fun type htype => ?_⟩
      split at htype
      · rename_i hvalue
        exact ⟨0, .holds hn hvalue hforwards htype⟩
      · exact absurd htype (by simp)
    | some slot =>
      dsimp only
      cases hnext : node.target? slot with
      | none => exact ⟨none, rfl, nofun⟩
      | some next =>
        obtain ⟨type?, hask, htyped⟩ :=
          ih node slot next hs hn hforwards hnext (target_mem hclosed hn hnext)
        refine ⟨type?, hask, fun type htype => ?_⟩
        obtain ⟨n, hafter⟩ := htyped type htype
        exact ⟨n + 1, .forwards hn hforwards hnext hafter⟩

/-- **No type is missed.** The nodes seen are further from the type than the node that is asked
for. -/
theorem typeFrom_of_typedAfter {n : Nat} {id type : NodeId} (h : g.TypedAfter n id type) :
    ∀ {seen : NodeSet}, (∀ other ∈ seen, ∀ m type', g.TypedAfter m other type' → n < m) →
      g.typeFrom id seen = .ok (some type) := by
  induction h with
  | @holds id type node hn hvalue hown htype =>
    intro seen hseen
    have hlast : g.TypedAfter 0 id type := .holds hn hvalue hown htype
    have hs : id ∉ seen := fun hs => Nat.lt_irrefl _ (hseen id hs 0 type hlast)
    rw [typeFrom_of_node? hs hn, hown]
    simp [hvalue, htype]
  | @forwards n slot id next type node hn hforwards hnext hafter ih =>
    intro seen hseen
    have hlast : g.TypedAfter (n + 1) id type := .forwards hn hforwards hnext hafter
    have hs : id ∉ seen := fun hs => Nat.lt_irrefl _ (hseen id hs (n + 1) type hlast)
    rw [typeFrom_of_node? hs hn, hforwards]
    simp only [hnext]
    refine ih fun other hother m type' hm => ?_
    rcases NodeSet.mem_insert.mp hother with hother | rfl
    · have := hseen other hother m type' hm
      omega
    · rw [← hlast.length_unique hm]
      exact Nat.lt_succ_self n

/-- **The question for the type of a node** has an answer, and it is the right one. -/
theorem typeOf_eq_ok (hclosed : Closed g) {id : NodeId} (hid : id ∈ g) :
    ∃ type?, g.typeOf id = .ok type? ∧ ∀ type, type? = some type ↔ g.Typed id type := by
  obtain ⟨type?, hask, htyped⟩ := typeFrom_eq_ok hclosed id .empty hid
  refine ⟨type?, hask, fun type => ⟨htyped type, fun h => ?_⟩⟩
  obtain ⟨n, hafter⟩ := h
  have hfound : g.typeFrom id .empty = .ok (some type) := typeFrom_of_typedAfter hafter (by simp)
  exact Except.ok.inj (hask.symm.trans hfound)

/-! ## The shape behind the type -/

/-- The shape is behind the node: the node is a type of that shape, or it wraps one, or it has a
type with that shape behind it. -/
inductive HasShape (g : Graph) : NodeId → TypeShape Name → Prop where
  | type {id : NodeId} {shape : TypeShape Name} : g.kind? id = some (.type shape) →
    HasShape g id shape
  | wrapped {id target : NodeId} {node : Node} {qualifiers : Qualifiers} {shape : TypeShape Name} :
    g.node? id = some node → node.kind = .qualifiedType qualifiers →
    node.target? 0 = some target → g.kind? target = some (.type shape) → HasShape g id shape
  | value {id type : NodeId} {shape : TypeShape Name} : g.Typed id type → HasShape g type shape →
    HasShape g id shape

/-- A node with a type is a value. -/
theorem Typed.producesValue {id type : NodeId} {node : Node} (h : g.Typed id type)
    (hn : g.node? id = some node) : node.kind.producesValue = true := by
  obtain ⟨_, h⟩ := h
  cases h with
  | holds hn' hvalue =>
    obtain rfl := Option.some.inj (hn.symm.trans hn')
    exact hvalue
  | forwards hn' hforwards =>
    obtain rfl := Option.some.inj (hn.symm.trans hn')
    cases hkind : node.kind with
    | expression shape => rfl
    | _ => simp [hkind, Kind.forwards?] at hforwards

/-- **The type of a value is a qualified type.** -/
theorem Typed.qualifiedType (hlaid : LaidOut g) {id type : NodeId} (h : g.Typed id type) :
    ∃ node qualifiers, g.node? type = some node ∧ node.kind = .qualifiedType qualifiers := by
  obtain ⟨_, h⟩ := h
  induction h with
  | @holds id type node hn hvalue hown htype =>
    obtain ⟨e, he, rfl⟩ := Option.map_eq_some_iff.mp htype
    have hedge : g.edge? id 0 = some e := by rw [edge?_of_node? hn, he]
    obtain ⟨target, htarget, hslot⟩ := hlaid.fits id node.kind (kind?_of_node? hn) 0 e hedge
    rw [Kind.slot_zero hvalue hown, Option.some.injEq] at hslot
    refine ⟨target, ?_⟩
    cases hkind : target.kind with
    | qualifiedType qualifiers => exact ⟨qualifiers, htarget, rfl⟩
    | _ => simp [Node.category, hkind, Kind.category] at hslot
  | forwards _ _ _ _ ih => exact ih

/-- What shape is behind a node depends on the category of the node. -/
theorem hasShape_iff {id : NodeId} {node : Node} (hn : g.node? id = some node)
    {shape : TypeShape Name} :
    g.HasShape id shape ↔
      match node.kind with
      | .type found => found = shape
      | .qualifiedType _ =>
        ∃ target, node.target? 0 = some target ∧ g.kind? target = some (.type shape)
      | .literal _ | .expression _ | .declaration _ =>
        ∃ type, g.Typed id type ∧ g.HasShape type shape
      | .statement _ => False := by
  constructor
  · intro h
    cases h with
    | type hkind =>
      rw [kind?_of_node? hn, Option.some.injEq] at hkind
      simp only [hkind]
    | wrapped hn' hkind htarget hshape =>
      obtain rfl := Option.some.inj (hn.symm.trans hn')
      simp only [hkind]
      exact ⟨_, htarget, hshape⟩
    | value htyped hshape =>
      have hvalue := htyped.producesValue hn
      cases hkind : node.kind with
      | type found => simp [hkind, Kind.producesValue] at hvalue
      | qualifiedType qualifiers => simp [hkind, Kind.producesValue] at hvalue
      | statement found => simp [hkind, Kind.producesValue] at hvalue
      | _ => exact ⟨_, htyped, hshape⟩
  · cases hkind : node.kind with
    | type found =>
      rintro rfl
      exact .type (by rw [kind?_of_node? hn, hkind])
    | qualifiedType qualifiers =>
      rintro ⟨target, htarget, hshape⟩
      exact .wrapped hn hkind htarget hshape
    | statement found => exact False.elim
    | _ =>
      rintro ⟨type, htyped, hshape⟩
      exact .value htyped hshape

theorem read_of_node? {id : NodeId} {node : Node} (hn : g.node? id = some node) :
    g.read id = .ok node := by
  rw [read, hn]

/-- One step towards the shape. -/
theorem valueTypeWithin_of_node? (steps : Nat) {id : NodeId} {node : Node}
    (hn : g.node? id = some node) :
    g.valueTypeWithin (steps + 1) id =
      match node.kind with
      | .type shape => .ok (some shape)
      | .qualifiedType _ =>
        match node.target? 0 with
        | some wrapped => (g.read wrapped).map fun wrapped => wrapped.kind.type?
        | none => .ok none
      | .literal _ | .expression _ | .declaration _ =>
        match g.typeOf id with
        | .ok (some type) => g.valueTypeWithin steps type
        | .ok none => .ok none
        | .error fault => .error fault
      | .statement _ => .ok none := by
  simp only [valueTypeWithin, read_of_node? hn, bind, Except.bind, pure, Except.pure]
  cases node.kind with
  | type shape => rfl
  | statement shape => rfl
  | qualifiedType qualifiers =>
    cases node.target? 0 with
    | none => rfl
    | some wrapped => dsimp only; cases g.read wrapped <;> rfl
  | _ =>
    dsimp only
    cases g.typeOf id with
    | error fault => rfl
    | ok type? => cases type? <;> rfl

theorem valueTypeWithin_of_qualifiedType (hclosed : Closed g) (steps : Nat) {id : NodeId}
    {node : Node} {qualifiers : Qualifiers} (hn : g.node? id = some node)
    (hkind : node.kind = .qualifiedType qualifiers) :
    ∃ shape?, g.valueTypeWithin (steps + 1) id = .ok shape?
      ∧ ∀ shape, shape? = some shape ↔ g.HasShape id shape := by
  simp only [hasShape_iff hn, valueTypeWithin_of_node? steps hn, hkind]
  cases htarget : node.target? 0 with
  | none => exact ⟨none, rfl, by simp⟩
  | some target =>
    obtain ⟨wrapped, hwrapped⟩ := mem_iff_node?.mp (target_mem hclosed hn htarget)
    simp only [read_of_node? hwrapped, Option.some.injEq, exists_eq_left', kind?_of_node? hwrapped]
    refine ⟨wrapped.kind.type?, rfl, fun shape => ?_⟩
    cases wrapped.kind <;> simp [Kind.type?]

/-- Of a value, the shape is the one behind its type. -/
theorem valueTypeWithin_of_typeOf (hclosed : Closed g) (hlaid : LaidOut g) (steps : Nat)
    {id : NodeId} (hid : id ∈ g) :
    ∃ shape?, (match g.typeOf id with
        | .ok (some type) => g.valueTypeWithin (steps + 1) type
        | .ok none => .ok none
        | .error fault => .error fault) = .ok shape?
      ∧ ∀ shape, shape? = some shape ↔ ∃ type, g.Typed id type ∧ g.HasShape type shape := by
  obtain ⟨type?, hask, htyped⟩ := typeOf_eq_ok hclosed hid
  rw [hask]
  cases type? with
  | none =>
    refine ⟨none, rfl, fun shape => ⟨nofun, ?_⟩⟩
    rintro ⟨type, h, _⟩
    exact absurd ((htyped type).mpr h) (by simp)
  | some type =>
    have htype : g.Typed id type := (htyped type).mp rfl
    obtain ⟨found, qualifiers, hfound, hkind⟩ := htype.qualifiedType hlaid
    obtain ⟨shape?, hshape, hiff⟩ := valueTypeWithin_of_qualifiedType hclosed steps hfound hkind
    refine ⟨shape?, hshape, fun shape => (hiff shape).trans ⟨fun h => ⟨type, htype, h⟩, ?_⟩⟩
    rintro ⟨other, hother, h⟩
    obtain rfl := Option.some.inj ((htyped other).mpr hother)
    exact h

/-- **The question for the shape behind a node** has an answer where layouts hold, and it is the
right one. -/
theorem valueType_eq_ok (hclosed : Closed g) (hlaid : LaidOut g) {id : NodeId} (hid : id ∈ g) :
    ∃ shape?, g.valueType id = .ok shape?
      ∧ ∀ shape, shape? = some shape ↔ g.HasShape id shape := by
  obtain ⟨node, hn⟩ := mem_iff_node?.mp hid
  -- there is at least the node itself, so two steps are allowed
  obtain ⟨steps, hsteps⟩ : ∃ steps, g.size = steps + 1 := by
    have hpos : id.index < g.size := mem_def.mp hid
    exact ⟨g.size - 1, by omega⟩
  have hvalue := valueTypeWithin_of_typeOf hclosed hlaid steps hid
  rw [valueType, hsteps]
  cases hkind : node.kind with
  | qualifiedType qualifiers => exact valueTypeWithin_of_qualifiedType hclosed _ hn hkind
  | type shape =>
    simp only [hasShape_iff hn, valueTypeWithin_of_node? _ hn, hkind]
    exact ⟨some shape, rfl, by simp⟩
  | statement shape =>
    simp only [hasShape_iff hn, valueTypeWithin_of_node? _ hn, hkind]
    exact ⟨none, rfl, by simp⟩
  | _ =>
    simp only [hasShape_iff hn, valueTypeWithin_of_node? _ hn, hkind]
    exact hvalue

end Graph

end SyntaxGraph
