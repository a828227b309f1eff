import SyntaxGraph.Outline
import SyntaxGraph.Proofs.Splices

/-!
# An outline lists a tree

An outline is written by going down, with a number in hand that says how far down.
What it says can be told without either. Its entries are the nodes of the tree in
the order of a walk, and among them, where they stand in their nodes, the
references. How far in an entry stands is told by going up: by as many steps as
there are owners between the node and the root.

`Writes` is writing without a bound. That writing ends is that there is something
it comes to, whatever circles the references make, and that the bound of an
outline is never met is that the outline is just that.
-/

namespace SyntaxGraph

/-! ## Writing without a bound -/

mutual

/-- Writing the tree of a node, `depth` steps in, comes to an end with these lines. -/
inductive Context.Writes (c : Context) : Nat → NodeId → List OutlineLine → Prop where
  | missing {depth : Nat} {id : NodeId} : c.graph.node? id = none →
    Writes c depth id [⟨depth, .missing⟩]
  | node {depth : Nat} {id : NodeId} {node : Node} {lines : List OutlineLine} :
    c.graph.node? id = some node → WritesAll c (depth + 1) node.children lines →
    Writes c depth id (⟨depth, .node id (c.describeKind node.kind)⟩ :: lines)

/-- Writing the slots with these edges, one after the other, comes to an end with these lines. -/
inductive Context.WritesAll (c : Context) : Nat → List Edge → List OutlineLine → Prop where
  | nil {depth : Nat} : WritesAll c depth [] []
  | owned {depth : Nat} {child : NodeId} {rest : List Edge} {lines more : List OutlineLine} :
    Writes c depth child lines → WritesAll c depth rest more →
    WritesAll c depth (.owned child :: rest) (lines ++ more)
  | ref {depth : Nat} {target : NodeId} {rest : List Edge} {more : List OutlineLine} :
    WritesAll c depth rest more →
    WritesAll c depth (.ref target :: rest) (⟨depth, .reference target⟩ :: more)

end

/-! ## Entries -/

/-- An entry of an outline. -/
inductive Entry where
  | node (id : NodeId)
  /-- A reference to the target in a slot of the owner. -/
  | reference (owner target : NodeId)
  deriving DecidableEq, Repr

/-- The node that an entry is for, if it is for a node. -/
def Entry.node? : Entry → Option NodeId
  | node id => some id
  | reference _ _ => none

namespace Graph

/-- The entries for the tree of a node, no more than `depth` levels of it. -/
def entriesWithin (g : Graph) : (depth : Nat) → NodeId → List Entry
  | 0, _ => []
  | depth + 1, id => .node id :: (g.edges id).flatMap fun
    | .owned child => g.entriesWithin depth child
    | .ref target => [.reference id target]

/-- The entries for the tree of a node. -/
def entries (g : Graph) (root : NodeId) : List Entry := g.entriesWithin g.size root

/-- The entries for a slot with the edge. -/
def slotEntries (g : Graph) (id : NodeId) : Edge → List Entry
  | .owned child => g.entries child
  | .ref target => [.reference id target]

/-- How many steps up from a node its root is. -/
def level (g : Graph) (root id : NodeId) : Nat :=
  ((List.range g.size).find? fun steps => g.climb steps id = some root).getD 0

end Graph

/-- The text of an entry in the outline of a root. -/
def Context.entryText (c : Context) (root : NodeId) : Entry → String
  | .node id => String.ofList (List.replicate (2 * c.graph.level root id) ' ')
      ++ id.text ++ " " ++ c.describe id ++ "\n"
  | .reference owner target =>
    String.ofList (List.replicate (2 * (c.graph.level root owner + 1)) ' ')
      ++ "-> " ++ target.text ++ "\n"

/-! ## Steps up -/

namespace Graph

variable {g : Graph}

theorem climb_child {steps : Nat} {root owner child : NodeId} (ho : g.Owns owner child)
    (hclimb : g.climb steps owner = some root) : g.climb (steps + 1) child = some root := by
  have hp : g.parent? child = some owner := ho
  rw [climb, hp, Option.bind_some, hclimb]

theorem above_of_climb (steps : Nat) : ∀ {root id : NodeId}, g.climb steps id = some root →
    g.Above root id := by
  induction steps with
  | zero =>
    intro root id h
    obtain rfl := Option.some.inj h
    exact .here id
  | succ steps ih =>
    intro root id h
    obtain ⟨owner, hp, hclimb⟩ := Option.bind_eq_some_iff.mp h
    exact .up hp (ih hclimb)

theorem exists_climb {root id : NodeId} (h : g.Above root id) :
    ∃ steps, g.climb steps id = some root := by
  induction h with
  | here => exact ⟨0, rfl⟩
  | up hp _ ih =>
    obtain ⟨steps, hclimb⟩ := ih
    exact ⟨steps + 1, climb_child hp hclimb⟩

/-- Going up meets a node once. -/
theorem OwnInv.climb_unique (h : OwnInv g) {root : NodeId} (steps : Nat) :
    ∀ {other : Nat} {id : NodeId}, g.climb steps id = some root → g.climb other id = some root →
      steps = other := by
  -- the root is not met again above an owner of it
  have hagain : ∀ {more : Nat} {id : NodeId}, id = root → g.climb (more + 1) id ≠ some root := by
    rintro more id rfl hclimb
    obtain ⟨owner, hp, hup⟩ := Option.bind_eq_some_iff.mp hclimb
    exact not_above_owner h.rooted id owner hp (above_of_climb more hup)
  induction steps with
  | zero =>
    intro other id hzero hother
    cases other with
    | zero => rfl
    | succ other => exact absurd hother (hagain (Option.some.inj hzero))
  | succ steps ih =>
    intro other id hsucc hother
    cases other with
    | zero => exact absurd hsucc (hagain (Option.some.inj hother))
    | succ other =>
      obtain ⟨owner, hp, hup⟩ := Option.bind_eq_some_iff.mp hsucc
      rw [climb, hp] at hother
      rw [ih hup hother]

theorem climb_none_of_le {steps : Nat} : ∀ {more : Nat} {id : NodeId}, g.climb steps id = none →
    steps ≤ more → g.climb more id = none := by
  induction steps with
  | zero => exact fun h _ => absurd h (by simp [climb])
  | succ steps ih =>
    intro more id h hle
    obtain ⟨more, rfl⟩ : ∃ m, more = m + 1 := ⟨more - 1, by omega⟩
    rw [climb] at h ⊢
    cases hp : g.parent? id with
    | none => rfl
    | some owner =>
      rw [hp] at h
      exact ih h (by omega)

/-- **The level of a node** is how many steps up its root is. -/
theorem OwnInv.climb_eq_iff (h : OwnInv g) {root id : NodeId} (hid : id ∈ g)
    (habove : g.Above root id) (steps : Nat) :
    g.climb steps id = some root ↔ steps = g.level root id := by
  obtain ⟨up, hup⟩ := exists_climb habove
  -- the way up ends before all nodes of the graph are met
  have hlt : up < g.size := by
    obtain ⟨most, hmost, hend⟩ := h.climb_ends hid
    by_contra hle
    rw [climb_none_of_le hend (by omega)] at hup
    cases hup
  have hlevel : g.level root id = up := by
    have hfind :
        (List.range g.size).find? (fun steps => g.climb steps id = some root) = some up := by
      rw [List.find?_range_eq_some]
      refine ⟨by simpa using hup, List.mem_range.mpr hlt, fun other hother => ?_⟩
      have hne : g.climb other id ≠ some root := fun hclimb => by
        have := h.climb_unique up hup hclimb
        omega
      simpa using hne
    rw [level, hfind, Option.getD_some]
  rw [hlevel]
  exact ⟨fun hsteps => h.climb_unique steps hsteps hup, fun heq => heq ▸ hup⟩

/-! ## What the entries are -/

theorem acc_of_shallow (depth : Nat) : ∀ {id : NodeId}, g.Shallow depth id →
    (∀ {owner child}, g.Owns owner child → child ∈ g.ownedChildren owner) →
      Acc (fun child owner => g.Owns owner child) id := by
  induction depth with
  | zero => exact fun hs => absurd hs not_false
  | succ depth ih => exact fun hs howned => ⟨_, fun child ho => ih (hs child (howned ho)) howned⟩

/-- **Going down ends.** -/
theorem OwnInv.descent (h : OwnInv g) : WellFounded fun child owner => g.Owns owner child := by
  refine ⟨fun id => ?_⟩
  by_cases hid : id ∈ g
  · exact acc_of_shallow g.size (h.shallow hid) h.mem_ownedChildren.mpr
  · exact ⟨id, fun child ho => absurd (h.owner_mem ho) hid⟩

theorem OwnInv.entriesWithin_eq (h : OwnInv g) (depth : Nat) : ∀ {id : NodeId} {limit : Nat},
    g.Shallow depth id → depth ≤ limit → g.entriesWithin limit id = g.entriesWithin depth id := by
  induction depth with
  | zero => exact fun hs _ => absurd hs not_false
  | succ depth ih =>
    intro id limit hs hle
    obtain ⟨limit, rfl⟩ : ∃ m, limit = m + 1 := ⟨limit - 1, by omega⟩
    rw [entriesWithin, entriesWithin]
    refine congrArg (Entry.node id :: ·) (List.flatMap_congr fun e he => ?_)
    cases e with
    | ref target => rfl
    | owned child =>
      have ho : g.Owns id child := (h.owner_iff id child).mpr he
      exact ih (hs child (h.mem_ownedChildren.mpr ho)) (by omega)

/-- **The entries for a tree** are one for its root and then, slot by slot, those for what the slot
owns or the one for its reference. -/
theorem OwnInv.entries_eq (h : OwnInv g) {id : NodeId} (hid : id ∈ g) :
    g.entries id = .node id :: (g.edges id).flatMap (g.slotEntries id) := by
  obtain ⟨depth, hsize⟩ : ∃ m, g.size = m + 1 :=
    ⟨g.size - 1, by have := Nat.zero_lt_of_lt (mem_def.mp hid); omega⟩
  have hs : g.Shallow (depth + 1) id := hsize ▸ h.shallow hid
  rw [entries, hsize, entriesWithin]
  refine congrArg (Entry.node id :: ·) (List.flatMap_congr fun e he => ?_)
  cases e with
  | ref target => rfl
  | owned child =>
    have ho : g.Owns id child := (h.owner_iff id child).mpr he
    rw [slotEntries, entries]
    exact (h.entriesWithin_eq depth (hs child (h.mem_ownedChildren.mpr ho)) (by omega)).symm

/-- The nodes among the entries are those of a walk, in the same order. -/
theorem OwnInv.filterMap_entries (h : OwnInv g) (root : NodeId) : root ∈ g →
    (g.entries root).filterMap Entry.node? = g.preorder root := by
  induction root using h.descent.induction with
  | _ id ih =>
    intro hid
    have hnode : Entry.node? (.node id) = some id := rfl
    rw [h.entries_eq hid, h.preorder_eq_blocks hid, List.filterMap_cons_some hnode,
      List.filterMap_flatMap]
    refine congrArg (id :: ·) (List.flatMap_congr fun e he => ?_)
    cases e with
    | ref target => rfl
    | owned child =>
      have ho : g.Owns id child := (h.owner_iff id child).mpr he
      exact ih child ho (h.child_mem ho)

/-- The entry for an edge of a node, if the edge is a reference. -/
def ownReference? (id : NodeId) : Edge → Option Entry
  | .owned _ => none
  | .ref target => some (.reference id target)

/-- The entries for a node and what it refers to. -/
def ownEntries (g : Graph) (id : NodeId) : List Entry :=
  .node id :: (g.edges id).filterMap (ownReference? id)

/-- Every node has its own entries, wherever they stand. -/
theorem OwnInv.entries_perm (h : OwnInv g) (root : NodeId) : root ∈ g →
    (g.entries root).Perm ((g.preorder root).flatMap g.ownEntries) := by
  induction root using h.descent.induction with
  | _ id ih =>
    intro hid
    rw [h.entries_eq hid, h.preorder_eq_blocks hid, List.flatMap_cons, ownEntries, List.cons_append]
    refine List.Perm.cons _ ?_
    -- slot by slot; the references go to the front
    have hslots : ∀ (edges : List Edge), (∀ e ∈ edges, e ∈ g.edges id) →
        (edges.flatMap (g.slotEntries id)).Perm
          (edges.filterMap (ownReference? id) ++ (edges.flatMap g.block).flatMap g.ownEntries) := by
      intro edges
      induction edges with
      | nil => exact fun _ => .nil
      | cons e rest ihrest =>
        intro hall
        obtain ⟨he, hrest⟩ := List.forall_mem_cons.mp hall
        have hmore := ihrest hrest
        cases e with
        | ref target => simpa [slotEntries, block, ownReference?] using hmore
        | owned child =>
          have ho : g.Owns id child := (h.owner_iff id child).mpr he
          rw [List.flatMap_cons, List.flatMap_cons, List.flatMap_append, slotEntries, block,
            List.filterMap_cons_none rfl]
          refine ((ih child ho (h.child_mem ho)).append hmore).trans ?_
          rw [← List.append_assoc, ← List.append_assoc]
          exact List.Perm.append_right _ List.perm_append_comm
    exact hslots _ fun _ he => he

end Graph

/-! ## Writing ends -/

namespace Context

open SyntaxGraph.Graph

variable {c : Context}

/-- What is written for a slot. -/
def slotLines (c : Context) (levels depth : Nat) : Edge → List OutlineLine
  | .owned child => c.outlineWithin levels depth child
  | .ref target => [⟨depth, .reference target⟩]

theorem outlineWithin_of_node? {levels depth : Nat} {id : NodeId} {node : Node}
    (hn : c.graph.node? id = some node) :
    c.outlineWithin (levels + 1) depth id =
      ⟨depth, .node id (c.describeKind node.kind)⟩ ::
        node.children.flatMap (c.slotLines levels (depth + 1)) := by
  rw [outlineWithin, hn]
  refine congrArg (_ :: ·) (List.flatMap_congr fun e _ => ?_)
  cases e <;> rfl

theorem writes_missing_iff {depth : Nat} {id : NodeId} (hid : id ∉ c.graph)
    {lines : List OutlineLine} : c.Writes depth id lines ↔ lines = [⟨depth, .missing⟩] := by
  have hnone := not_mem_iff_node?.mp hid
  constructor
  · intro h
    cases h with
    | missing _ => rfl
    | node hn _ =>
      rw [hnone] at hn
      cases hn
  · rintro rfl
    exact .missing hnone

/-- Writing slots is writing each of them, as far as writing what they own is settled. -/
theorem writesAll_iff {levels depth : Nat} (edges : List Edge)
    (howned : ∀ child, Edge.owned child ∈ edges → ∀ lines,
      c.Writes depth child lines ↔ lines = c.outlineWithin levels depth child) :
    ∀ {lines : List OutlineLine},
      c.WritesAll depth edges lines ↔ lines = edges.flatMap (c.slotLines levels depth) := by
  induction edges with
  | nil =>
    intro lines
    constructor
    · intro h
      cases h
      rfl
    · rintro rfl
      exact .nil
  | cons e rest ih =>
    intro lines
    have hrest := @ih fun child he => howned child (List.mem_cons_of_mem _ he)
    rw [List.flatMap_cons]
    cases e with
    | ref target =>
      constructor
      · intro h
        cases h with
        | ref hmore => rw [hrest.mp hmore]; rfl
      · rintro rfl
        exact .ref (hrest.mpr rfl)
    | owned child =>
      have hchild := howned child List.mem_cons_self
      constructor
      · intro h
        cases h with
        | owned hlines hmore => rw [(hchild _).mp hlines, hrest.mp hmore]; rfl
      · rintro rfl
        exact .owned ((hchild _).mpr rfl) (hrest.mpr rfl)

theorem writes_iff_of_shallow (h : OwnInv c.graph) (depth : Nat) :
    ∀ {levels steps : Nat} {id : NodeId}, c.graph.Shallow depth id → id ∈ c.graph →
      depth ≤ levels →
        ∀ lines, c.Writes steps id lines ↔ lines = c.outlineWithin levels steps id := by
  induction depth with
  | zero => exact fun hs => absurd hs id
  | succ depth ih =>
    intro levels steps id hs hid hle lines
    obtain ⟨levels, rfl⟩ : ∃ m, levels = m + 1 := ⟨levels - 1, by omega⟩
    obtain ⟨node, hn⟩ := mem_iff_node?.mp hid
    have hslots := @writesAll_iff c levels (steps + 1) node.children fun child he => by
      have ho : c.graph.Owns id child := (h.owner_iff id child).mpr (edges_of_node? hn ▸ he)
      exact ih (hs child (h.mem_ownedChildren.mpr ho)) (h.child_mem ho) (by omega)
    rw [outlineWithin_of_node? hn]
    constructor
    · intro hw
      cases hw with
      | missing hnone =>
        rw [hn] at hnone
        cases hnone
      | node hn' hall =>
        obtain rfl := Option.some.inj (hn.symm.trans hn')
        rw [hslots.mp hall]
    · rintro rfl
      exact .node hn (hslots.mpr rfl)

/-- **Writing an outline ends**, with the outline, whatever references there are. -/
theorem writes_iff (h : OwnInv c.graph) (root : NodeId) (lines : List OutlineLine) :
    c.Writes 0 root lines ↔ lines = c.outline root := by
  by_cases hroot : root ∈ c.graph
  · exact writes_iff_of_shallow h c.graph.size (h.shallow hroot) hroot (Nat.le_succ _) lines
  · rw [writes_missing_iff hroot, outline, outlineWithin, not_mem_iff_node?.mp hroot]

/-- The line for an entry. -/
def entryLine (c : Context) (root : NodeId) : Entry → OutlineLine
  | .node id => ⟨c.graph.level root id, .node id (c.describe id)⟩
  | .reference owner target => ⟨c.graph.level root owner + 1, .reference target⟩

theorem text_entryLine (root : NodeId) (e : Entry) :
    (c.entryLine root e).text = c.entryText root e := by
  cases e <;>
    simp only [entryLine, entryText, OutlineLine.text, OutlineItem.text, String.append_assoc]

/-- What is written for a tree is a line for each of its entries. -/
theorem writes_entries (h : OwnInv c.graph) (root id : NodeId) : id ∈ c.graph →
    ∀ {steps : Nat}, c.graph.climb steps id = some root →
      c.Writes steps id ((c.graph.entries id).map (c.entryLine root)) := by
  induction id using h.descent.induction with
  | _ id ih =>
    intro hid steps hclimb
    obtain ⟨node, hn⟩ := mem_iff_node?.mp hid
    have hlevel : steps = c.graph.level root id :=
      (h.climb_eq_iff hid (above_of_climb steps hclimb) steps).mp hclimb
    have hdescribe : c.describe id = c.describeKind node.kind := by
      rw [describe, kind?_of_node? hn]
    have hslots : ∀ edges : List Edge, (∀ e ∈ edges, e ∈ c.graph.edges id) →
        c.WritesAll (steps + 1) edges
          ((edges.flatMap (c.graph.slotEntries id)).map (c.entryLine root)) := by
      intro edges
      induction edges with
      | nil => exact fun _ => .nil
      | cons e rest ihrest =>
        intro hall
        obtain ⟨he, hrest⟩ := List.forall_mem_cons.mp hall
        rw [List.flatMap_cons, List.map_append]
        cases e with
        | ref target =>
          rw [slotEntries, List.map_singleton, entryLine, ← hlevel]
          exact .ref (ihrest hrest)
        | owned child =>
          have ho : c.graph.Owns id child := (h.owner_iff id child).mpr he
          exact .owned (ih child ho (h.child_mem ho) (climb_child ho hclimb)) (ihrest hrest)
    rw [h.entries_eq hid, List.map_cons, entryLine, ← hlevel, hdescribe]
    exact .node hn (edges_of_node? hn ▸ hslots _ fun _ he => he)

theorem outline_eq (h : OwnInv c.graph) {root : NodeId} (hroot : root ∈ c.graph) :
    c.outline root = (c.graph.entries root).map (c.entryLine root) :=
  ((writes_iff h root _).mp (writes_entries h root root hroot rfl)).symm

/-! ## The text -/

/-- What the outline of a root in the graph says. -/
structure Outlined (c : Context) (root : NodeId) : Prop where
  /-- It is the text of its entries, one after the other. -/
  text : c.dump root = String.join ((c.graph.entries root).map (c.entryText root))
  /-- An entry for a node comes before the entries for its slots, and those come in order. -/
  in_order : ∀ id ∈ c.graph, c.graph.entries id =
    .node id :: (c.graph.edges id).flatMap (c.graph.slotEntries id)
  /-- The level of a node is how many steps up the root is. -/
  level_iff : ∀ id, c.graph.Above root id → ∀ steps,
    c.graph.climb steps id = some root ↔ steps = c.graph.level root id
  /-- The nodes of the entries are those that a collection of all nodes finds, in the same order. -/
  nodes : c.graph.collect root (asking fun _ => true) () =
    .ok ((c.graph.entries root).filterMap Entry.node?, ())
  /-- They are the nodes of the tree, each of them once. -/
  once : ((c.graph.entries root).filterMap Entry.node?).Nodup
  mem_iff : ∀ id, .node id ∈ c.graph.entries root ↔ c.graph.Above root id

theorem mem_entries_iff {g : Graph} {root id : NodeId} :
    .node id ∈ g.entries root ↔ id ∈ (g.entries root).filterMap Entry.node? := by
  rw [List.mem_filterMap]
  constructor
  · exact fun h => ⟨_, h, rfl⟩
  · intro h
    obtain ⟨e, he, hnode⟩ := h
    cases e with
    | node other => exact Option.some.inj hnode ▸ he
    | reference owner target => cases hnode

theorem outlined (h : OwnInv c.graph) {root : NodeId} (hroot : root ∈ c.graph) :
    c.Outlined root := by
  have hnodes := h.filterMap_entries root hroot
  refine ⟨?text, fun id hid => h.entries_eq hid, fun id habove => ?level, ?nodes, ?once,
    fun id => ?mem⟩
  case text =>
    rw [dump, outline_eq h hroot, List.map_map]
    exact congrArg String.join (List.map_congr_left fun e _ => text_entryLine root e)
  case level => exact h.climb_eq_iff (h.mem_of_above hroot habove) habove
  case nodes =>
    have hall : (c.graph.preorder root).filter (c.graph.satisfies fun _ => true) =
        c.graph.preorder root := by
      refine List.filter_eq_self.mpr fun id hid => ?_
      obtain ⟨node, hn⟩ := mem_iff_node?.mp (h.mem_of_mem_preorder hroot hid)
      rw [satisfies, kind?_of_node? hn, Option.any_some]
    rw [h.collect_eq_ok hroot, hall, hnodes]
  case once =>
    rw [hnodes]
    exact h.nodup_preorder hroot
  case mem => rw [mem_entries_iff, hnodes, h.mem_preorder hroot]

end Context

end SyntaxGraph
