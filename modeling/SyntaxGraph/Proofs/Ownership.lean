import Mathlib.Data.List.Perm.Subperm
import Mathlib.Logic.ExistsUnique
import SyntaxGraph.Proofs.Reachable

/-!
# Ownership is a forest

Who owns what is written down twice: as an owned edge of the owner, and as the
parent of the owned node. Five kinds of change touch the two separately. The
invariant says that they never come apart, that an owned node is finished and
owned through a single slot, and that going up from owner to owner ends.

The last part is what the check against cycles is for, and also what makes it
end. A node may be adopted by anything it is not above: from the adopter the way
up is the old one, and every other way up joins it or was there before.
-/

namespace SyntaxGraph.Graph

variable {g g' : Graph}

/-! ## Going up -/

/-- The first node is the owner that the second one names. -/
def Owns (g : Graph) (owner child : NodeId) : Prop := g.parent? child = some owner

theorem owns_unique {a b child : NodeId} (ha : g.Owns a child) (hb : g.Owns b child) : a = b :=
  Option.some.inj (ha.symm.trans hb)

theorem above_owner {id start owner : NodeId} (h : g.Above id start) (ho : g.Owns owner id) :
    g.Above owner start := by
  induction h with
  | here => exact .up ho (.here owner)
  | up hp _ ih => exact .up hp ih

/-- Where going up ends, a node is not above its owner. -/
theorem not_above_owner (h : WellFounded g.Owns) (id : NodeId) :
    ∀ owner, g.Owns owner id → ¬ g.Above id owner := by
  induction id using h.induction with
  | _ id ih =>
    intro owner ho habove
    cases habove with
    | here => exact ih id ho id ho (.here id)
    | up hp hup => exact ih owner ho _ hp (above_owner hup ho)

/-- The search for an owner, where it ends, finds what there is. -/
theorem isAboveWithin_eq_ok {id : NodeId} {above : Bool} (steps : Nat) :
    ∀ {start : NodeId}, g.isAboveWithin id steps start = .ok above →
      (above = true ↔ g.Above id start) := by
  induction steps with
  | zero => intro start h; simp [isAboveWithin] at h
  | succ steps ih =>
    intro start h
    rw [isAboveWithin] at h
    by_cases hs : start = id
    · subst hs
      rw [if_pos rfl, Except.ok.injEq] at h
      exact ⟨fun _ => .here start, fun _ => h.symm⟩
    · rw [if_neg hs] at h
      cases hn : g.node? start with
      | none => simp [hn] at h
      | some node =>
        have hp : g.parent? start = node.parent := by simp [parent?, hn]
        simp only [hn] at h
        cases hq : node.parent with
        | none =>
          simp only [hq, Except.ok.injEq] at h
          subst h
          refine ⟨fun hf => Bool.noConfusion hf, fun habove => ?_⟩
          cases habove with
          | here => exact absurd rfl hs
          | up ho _ => rw [hp, hq] at ho; exact absurd ho (by simp)
        | some owner =>
          simp only [hq] at h
          rw [ih h]
          refine ⟨fun habove => .up (hp.trans hq) habove, fun habove => ?_⟩
          cases habove with
          | here => exact absurd rfl hs
          | up ho hup => exact owns_unique (hp.trans hq) ho ▸ hup

theorem not_above_of_isAbove {id start : NodeId} (h : g.isAbove id start = .ok false) :
    ¬ g.Above id start := by
  intro habove
  have := (isAboveWithin_eq_ok _ h).mpr habove
  exact Bool.noConfusion this

/-- The node that is so many owners above, if there is one. -/
def climb (g : Graph) : (steps : Nat) → NodeId → Option NodeId
  | 0, id => some id
  | steps + 1, id => (g.parent? id).bind (g.climb steps)

/-! ## The invariant -/

/-- What every change keeps of ownership. -/
structure OwnInv (g : Graph) : Prop where
  /-- Edges lead to nodes. -/
  closed : g.Closed
  /-- A node names as its owner the one whose edge owns it. -/
  owner_iff : ∀ owner child, g.Owns owner child ↔ Edge.owned child ∈ g.edges owner
  /-- Nothing owns a node through two slots. -/
  once : ∀ owner child i j, g.edge? owner i = some (.owned child) →
    g.edge? owner j = some (.owned child) → i = j
  /-- Only finished nodes are owned. -/
  frozen : ∀ owner child, Edge.owned child ∈ g.edges owner → g.isFrozen child = true
  /-- Going up ends. -/
  rooted : WellFounded g.Owns

theorem OwnInv.owns_of_edge? (h : OwnInv g) {owner child : NodeId} {index : Nat}
    (he : g.edge? owner index = some (.owned child)) : g.Owns owner child :=
  (h.owner_iff owner child).mpr (mem_edges_iff.mpr ⟨index, he⟩)

theorem OwnInv.not_mem_of_free (h : OwnInv g) {child : NodeId} (hf : g.Free child)
    (owner : NodeId) : Edge.owned child ∉ g.edges owner := by
  intro he
  have ho : g.parent? child = some owner := (h.owner_iff owner child).mpr he
  rw [hf.unowned] at ho
  exact absurd ho (by simp)

theorem ownInv_empty : OwnInv empty where
  closed := closed_empty
  owner_iff owner child := by simp [Owns, parent?, edges, node?_empty]
  once owner child i j h := by simp [edge?, edges, node?_empty] at h
  frozen owner child h := by simp [edges, node?_empty] at h
  rooted := ⟨fun id => ⟨id, fun owner ho => by simp [Owns, parent?, node?_empty] at ho⟩⟩

theorem ownInv_of_same (h : OwnInv g) (hs : Change g g')
    (hedges : ∀ id, g'.edges id = g.edges id) (hparent : ∀ id, g'.parent? id = g.parent? id)
    (hfrozen : ∀ id, g.isFrozen id = true → g'.isFrozen id = true) : OwnInv g' where
  closed := closed_change h.closed hs
  owner_iff owner child := by rw [Owns, hparent, hedges]; exact h.owner_iff owner child
  once owner child i j := by rw [edge?, edge?, hedges]; exact h.once owner child i j
  frozen owner child he := hfrozen child (h.frozen owner child (hedges owner ▸ he))
  rooted := by
    have howns : g'.Owns = g.Owns := by
      funext owner child
      rw [Owns, hparent, Owns]
    exact howns ▸ h.rooted

/-- From a node that `adopted` is not above, going up is what it was. -/
theorem acc_of_not_above (h : WellFounded g.Owns) (adopted : NodeId)
    (hold : ∀ owner child, g'.Owns owner child → g.Owns owner child ∨ child = adopted)
    (id : NodeId) : ¬ g.Above adopted id → Acc g'.Owns id := by
  induction id using h.induction with
  | _ id ih =>
    intro hnot
    refine ⟨id, fun owner ho => ?_⟩
    rcases hold owner id ho with ho | rfl
    · exact ih owner ho fun habove => hnot (.up ho habove)
    · exact absurd (.here id) hnot

/-- New owners are all one node, and going up from there ends. -/
theorem rooted_of_acc (h : WellFounded g.Owns) (adopter : NodeId) (hacc : Acc g'.Owns adopter)
    (hold : ∀ owner child, g'.Owns owner child → g.Owns owner child ∨ owner = adopter) :
    WellFounded g'.Owns := by
  refine ⟨fun id => ?_⟩
  induction id using h.induction with
  | _ id ih =>
    refine ⟨id, fun owner ho => ?_⟩
    rcases hold owner id ho with ho | rfl
    · exact ih owner ho
    · exact hacc

/-- What an edge owns may be adopted by a node that it is not above. -/
theorem rooted_of_adoptable (h : WellFounded g.Owns) {adopter : NodeId} {e : Edge}
    (hadopt : g.Adoptable adopter e)
    (hold : ∀ owner child, g'.Owns owner child →
      g.Owns owner child ∨ (owner = adopter ∧ e = .owned child)) :
    WellFounded g'.Owns := by
  refine rooted_of_acc h adopter ?_ fun owner child ho =>
    (hold owner child ho).imp_right And.left
  cases e with
  | ref target =>
    -- nothing is adopted, so every owner is an old one
    refine Subrelation.accessible (fun {owner child} ho => ?_) (h.apply adopter)
    rcases hold owner child ho with ho | ⟨_, he⟩
    · exact ho
    · exact Edge.noConfusion he
  | owned child =>
    refine acc_of_not_above h child (fun owner id ho => ?_) adopter ?_
    · exact (hold owner id ho).imp_right fun hn => (Edge.owned.inj hn.2).symm
    · exact not_above_of_isAbove (hadopt child rfl).2

theorem ownInv_addChild (h : OwnInv g) {parent : NodeId} {e : Edge}
    (hcheck : g.checkPush parent e = .ok ()) : OwnInv (g.addChild parent e) := by
  obtain ⟨node, hn, _, hfits, hadopt⟩ := checkPush_eq_ok.mp hcheck
  have hedges := edges_addChild (mem_iff_node?.mpr ⟨node, hn⟩) e
  have hparent := parent?_addChild parent hfits.mem
  have hfree : ∀ child, e = .owned child → Edge.owned child ∉ g.edges parent :=
    fun child he => h.not_mem_of_free (hadopt child he).1 parent
  refine ⟨closed_change h.closed (.push hcheck), ?owner_iff, ?once, ?frozen, ?rooted⟩
  case owner_iff =>
    intro owner child
    rw [Owns, hparent, hedges]
    by_cases he : e = .owned child
    · rw [if_pos he, Option.some.injEq]
      by_cases ho : owner = parent
      · simp [ho, he]
      · rw [if_neg ho]
        exact ⟨fun hp => absurd hp.symm ho,
          fun hm => absurd hm (h.not_mem_of_free (hadopt child he).1 owner)⟩
    · rw [if_neg he, ← Owns, h.owner_iff]
      by_cases ho : owner = parent
      · simp [ho, Ne.symm he]
      · rw [if_neg ho]
  case once =>
    intro owner child i j hi hj
    rw [edge?, hedges] at hi hj
    by_cases ho : owner = parent
    · rw [if_pos ho, List.getElem?_append] at hi hj
      -- an old slot and the new one cannot both own the child: it was free
      have hnew : ∀ {k : Nat}, [e][k]? = some (Edge.owned child) → k = 0 ∧ e = .owned child := by
        intro k hk
        cases k with
        | zero => exact ⟨rfl, by simpa using hk⟩
        | succ k => simp at hk
      split at hi <;> split at hj
      · exact h.once parent child i j hi hj
      · exact absurd (List.mem_of_getElem? hi) (hfree child (hnew hj).2)
      · exact absurd (List.mem_of_getElem? hj) (hfree child (hnew hi).2)
      · have := (hnew hi).1
        have := (hnew hj).1
        omega
    · rw [if_neg ho] at hi hj
      exact h.once owner child i j hi hj
  case frozen =>
    intro owner child he
    rw [isFrozen_addChild]
    rw [hedges] at he
    split at he
    · rcases List.mem_append.mp he with he | he
      · exact h.frozen parent child he
      · exact (hadopt child (List.mem_singleton.mp he).symm).1.frozen
    · exact h.frozen owner child he
  case rooted =>
    refine rooted_of_adoptable h.rooted hadopt fun owner child ho => ?_
    rw [Owns, hparent] at ho
    split at ho
    · rename_i he
      exact .inr ⟨(Option.some.inj ho).symm, he⟩
    · exact .inl ho

theorem ownInv_insert (h : OwnInv g) {kind : Kind Name} {children : List Edge} (span : Span)
    (hroom : g.HasRoom 1) (hcheck : g.checkCreate kind children = .ok ()) :
    OwnInv (g.insert kind children span) := by
  have hmem := target_mem_of_checkCreate hcheck
  have hparent := parent?_insert kind span hmem
  have hfree : ∀ child, Edge.owned child ∈ children → g.Free child := by
    intro child he
    obtain ⟨_, _, _, hown⟩ := fits_of_checkCreate hcheck he
    exact (hown child rfl).1
  have hnext : g.edges g.nextId = [] := by simp [edges, node?_nextId]
  refine ⟨closed_change h.closed (.create span hroom hcheck), ?owner_iff, ?once, ?frozen, ?rooted⟩
  case owner_iff =>
    intro owner child
    rw [Owns, hparent, edges_insert]
    by_cases he : Edge.owned child ∈ children
    · rw [if_pos he, Option.some.injEq]
      by_cases ho : owner = g.nextId
      · simp [ho, he]
      · rw [if_neg ho]
        exact ⟨fun hp => absurd hp.symm ho,
          fun hm => absurd hm (h.not_mem_of_free (hfree child he) owner)⟩
    · rw [if_neg he, ← Owns, h.owner_iff]
      by_cases ho : owner = g.nextId
      · simp [ho, hnext, he]
      · rw [if_neg ho]
  case once =>
    intro owner child i j hi hj
    rw [edge?, edges_insert] at hi hj
    by_cases ho : owner = g.nextId
    · rw [if_pos ho] at hi hj
      -- the later of two slots would have been refused
      have hlater : ∀ {k l : Nat}, children[k]? = some (Edge.owned child) →
          children[l]? = some (Edge.owned child) → ¬ k < l := by
        intro k l hk hl hkl
        refine (((checkCreate_eq_ok.mp hcheck).2 l _ hl).2 child rfl).2 ?_
        exact List.mem_iff_getElem?.mpr ⟨k, by rw [List.getElem?_take, if_pos hkl]; exact hk⟩
      have := hlater hi hj
      have := hlater hj hi
      omega
    · rw [if_neg ho] at hi hj
      exact h.once owner child i j hi hj
  case frozen =>
    intro owner child he
    rw [isFrozen_insert, Bool.or_eq_true]
    rw [edges_insert] at he
    split at he
    · exact .inr (hfree child he).frozen
    · exact .inr (h.frozen owner child he)
  case rooted =>
    refine rooted_of_acc h.rooted g.nextId ?_ fun owner child ho => ?_
    · -- the new node is owned by nothing
      refine ⟨g.nextId, fun owner ho => ?_⟩
      have hnot : Edge.owned g.nextId ∉ children := fun he => nextId_not_mem g (hmem _ he)
      rw [Owns, hparent, if_neg hnot, parent?, node?_nextId] at ho
      exact absurd ho (by simp)
    · rw [Owns, hparent] at ho
      split at ho
      · exact .inr (Option.some.inj ho).symm
      · exact .inl ho

theorem ownInv_setChild (h : OwnInv g) {parent : NodeId} {index : Nat} {old new : Edge}
    (hcheck : g.checkReplace parent index new = .ok old) (hne : old ≠ new) :
    OwnInv (g.setChild parent index old new) := by
  obtain ⟨_, _, _, hnew⟩ := checkReplace_eq_ok.mp hcheck
  obtain ⟨hfits, hadopt, _⟩ := hnew hne
  have hslot := edge?_of_checkReplace hcheck
  have hparent := parent?_setChild parent index old hfits.mem
  have hget := edge?_setChild hslot new
  have hfree : ∀ {child}, new = .owned child → ∀ {owner i}, g.edge? owner i ≠ some (.owned child) :=
    fun hc _ _ he => h.not_mem_of_free (hadopt _ hc).1 _ (List.mem_of_getElem? he)
  refine ⟨closed_change h.closed (.replace hcheck hne), ?owner_iff, ?once, ?frozen, ?rooted⟩
  case owner_iff =>
    intro owner child
    rw [Owns, hparent, mem_edges_iff]
    simp only [hget]
    by_cases hc : new = .owned child
    · rw [if_pos hc, Option.some.injEq]
      constructor
      · rintro rfl
        exact ⟨index, by simp [hc]⟩
      · intro hslot
        obtain ⟨i, hi⟩ := hslot
        split at hi
        · rename_i ho
          exact ho.1.symm
        · exact absurd hi (hfree hc)
    · rw [if_neg hc]
      by_cases hd : old = .owned child
      · -- the one slot that owned the child is overwritten
        rw [if_pos hd]
        refine ⟨fun ho => absurd ho (by simp), fun ⟨i, hi⟩ => ?_⟩
        split at hi
        · exact absurd (Option.some.inj hi) hc
        · rename_i hother
          have ho : owner = parent :=
            owns_unique (h.owns_of_edge? hi) (h.owns_of_edge? (hd ▸ hslot))
          subst ho
          exact absurd ⟨rfl, h.once owner child i index hi (hd ▸ hslot)⟩ hother
      · rw [if_neg hd, ← Owns, h.owner_iff, mem_edges_iff]
        refine exists_congr fun i => ?_
        split
        · rename_i ho
          rw [ho.1, ho.2, hslot, Option.some.injEq, Option.some.injEq]
          exact ⟨fun he => absurd he hd, fun he => absurd he hc⟩
        · exact Iff.rfl
  case once =>
    intro owner child i j hi hj
    rw [hget] at hi hj
    split at hi <;> split at hj
    · rename_i hi' hj'
      rw [hi'.2, hj'.2]
    · exact absurd hj (hfree (Option.some.inj hi))
    · exact absurd hi (hfree (Option.some.inj hj))
    · exact h.once owner child i j hi hj
  case frozen =>
    intro owner child he
    rw [isFrozen_setChild]
    obtain ⟨i, hi⟩ := mem_edges_iff.mp he
    rw [hget] at hi
    split at hi
    · exact (hadopt child (Option.some.inj hi)).1.frozen
    · exact h.frozen owner child (mem_edges_iff.mpr ⟨i, hi⟩)
  case rooted =>
    refine rooted_of_adoptable h.rooted hadopt fun owner child ho => ?_
    rw [Owns, hparent] at ho
    split at ho
    · rename_i he
      exact .inr ⟨(Option.some.inj ho).symm, he⟩
    · split at ho
      · exact absurd ho (by simp)
      · exact .inl ho

/-- **Every change keeps the invariant.** -/
theorem ownInv_change (h : OwnInv g) (hs : Change g g') : OwnInv g' := by
  cases hs with
  | begin kind span hroom =>
    exact ownInv_of_same h (.begin kind span hroom) (edges_begin kind span)
      (parent?_begin kind span) fun id hf => (isFrozen_begin kind span id).trans hf
  | push hcheck => exact ownInv_addChild h hcheck
  | freeze hcheck =>
    obtain ⟨node, hn, _⟩ := checkFreeze_eq_ok.mp hcheck
    refine ownInv_of_same h (.freeze hcheck) (edges_finish _) (parent?_finish _) fun id hf => ?_
    rw [isFrozen_finish (mem_iff_node?.mpr ⟨node, hn⟩), hf, Bool.or_true]
  | create span hroom hcheck => exact ownInv_insert h span hroom hcheck
  | replace hcheck hne => exact ownInv_setChild h hcheck hne

theorem ownInv_reachable {c : Context} (h : Reachable c) : OwnInv c.graph :=
  reachable_invariant ownInv_empty ownInv_change h

/-! ## How far up it goes -/

theorem OwnInv.owner_mem (h : OwnInv g) {owner child : NodeId} (ho : g.Owns owner child) :
    owner ∈ g :=
  mem_of_edge ((h.owner_iff owner child).mp ho)

/-- The way up from a node meets no node twice. -/
theorem OwnInv.way_up (h : OwnInv g) (id : NodeId) : id ∈ g →
    ∃ way : List NodeId, way.Nodup ∧ (∀ a ∈ way, a ∈ g ∧ g.Above a id)
      ∧ g.climb way.length id = none := by
  induction id using h.rooted.induction with
  | _ id ih =>
    intro hid
    cases hp : g.parent? id with
    | none => exact ⟨[id], by simp, by simp [hid, Above.here], by simp [climb, hp]⟩
    | some owner =>
      obtain ⟨way, hnodup, hway, hend⟩ := ih owner hp (h.owner_mem hp)
      refine ⟨id :: way, List.nodup_cons.mpr ⟨fun hm => ?_, hnodup⟩, ?_, ?_⟩
      · exact not_above_owner h.rooted id owner hp (hway id hm).2
      · intro a ha
        rcases List.mem_cons.mp ha with rfl | ha
        · exact ⟨hid, .here a⟩
        · exact ⟨(hway a ha).1, .up hp (hway a ha).2⟩
      · rw [List.length_cons, climb, hp]
        exact hend

theorem length_le_size {l : List NodeId} (hnodup : l.Nodup) (hl : ∀ id ∈ l, id ∈ g) :
    l.length ≤ g.size := by
  have hsub : List.Subperm l g.ids := hnodup.subperm fun id hid => mem_ids.mpr (hl id hid)
  simpa [ids] using hsub.length_le

theorem OwnInv.climb_ends (h : OwnInv g) {id : NodeId} (hid : id ∈ g) :
    ∃ steps ≤ g.size, g.climb steps id = none := by
  obtain ⟨way, hnodup, hway, hend⟩ := h.way_up id hid
  exact ⟨way.length, length_le_size hnodup fun a ha => (hway a ha).1, hend⟩

theorem OwnInv.isAboveWithin_ends (h : OwnInv g) (id : NodeId) (steps : Nat) :
    ∀ {start : NodeId} {limit : Nat}, start ∈ g → g.climb steps start = none → steps ≤ limit →
      ∃ above, g.isAboveWithin id limit start = .ok above := by
  induction steps with
  | zero => intro start limit _ hc; simp [climb] at hc
  | succ steps ih =>
    intro start limit hstart hc hle
    obtain ⟨limit, rfl⟩ : ∃ m, limit = m + 1 := ⟨limit - 1, by omega⟩
    rw [isAboveWithin]
    by_cases hs : start = id
    · exact ⟨true, if_pos hs⟩
    · obtain ⟨node, hn⟩ := mem_iff_node?.mp hstart
      rw [if_neg hs, hn]
      dsimp only
      have hp : g.parent? start = node.parent := by simp [parent?, hn]
      cases hq : node.parent with
      | none => exact ⟨false, rfl⟩
      | some owner =>
        rw [hq] at hp
        rw [climb, hp] at hc
        exact ih (h.owner_mem hp) hc (by omega)

/-- **The search for a node above another ends, and finds it if it is there.** -/
theorem OwnInv.isAbove_ends (h : OwnInv g) (id : NodeId) {start : NodeId} (hstart : start ∈ g) :
    ∃ above, g.isAbove id start = .ok above ∧ (above = true ↔ g.Above id start) := by
  obtain ⟨steps, hle, hc⟩ := h.climb_ends hstart
  obtain ⟨above, ha⟩ := h.isAboveWithin_ends id steps hstart hc (Nat.le_succ_of_le hle)
  exact ⟨above, ha, isAboveWithin_eq_ok _ ha⟩

/-! ## The forest -/

/-- Ownership is a forest. -/
structure Forest (g : Graph) : Prop where
  /-- A node names an owner exactly if a single slot of the whole arena owns the node, and it is a
  slot of that owner. -/
  owned_iff : ∀ child owner, g.parent? child = some owner ↔
    (∃! slot : NodeId × Nat, g.edge? slot.1 slot.2 = some (.owned child))
      ∧ ∃ index, g.edge? owner index = some (.owned child)
  /-- A node names no owner exactly if no slot owns it. -/
  unowned_iff : ∀ child, g.parent? child = none ↔
    ∀ owner index, g.edge? owner index ≠ some (.owned child)
  /-- What a slot owns is finished. -/
  owned_frozen : ∀ child owner index, g.edge? owner index = some (.owned child) →
    g.isFrozen child = true
  /-- Going up from a node leads out of the forest in no more steps than there are nodes. -/
  climb_ends : ∀ id ∈ g, ∃ steps ≤ g.size, g.climb steps id = none
  /-- So the search for a node above another one ends, with the right answer. -/
  isAbove_ends : ∀ id, ∀ start ∈ g,
    ∃ above, g.isAbove id start = .ok above ∧ (above = true ↔ g.Above id start)

theorem OwnInv.slot_unique (h : OwnInv g) {child a b : NodeId} {i j : Nat}
    (ha : g.edge? a i = some (.owned child)) (hb : g.edge? b j = some (.owned child)) :
    a = b ∧ i = j := by
  have hab : a = b := owns_unique (h.owns_of_edge? ha) (h.owns_of_edge? hb)
  subst hab
  exact ⟨rfl, h.once a child i j ha hb⟩

theorem OwnInv.parent?_eq_none_iff (h : OwnInv g) (child : NodeId) :
    g.parent? child = none ↔ ∀ owner index, g.edge? owner index ≠ some (.owned child) := by
  constructor
  · intro hp owner index he
    have ho : g.parent? child = some owner := h.owns_of_edge? he
    rw [hp] at ho
    exact absurd ho (by simp)
  · intro hno
    cases hp : g.parent? child with
    | none => rfl
    | some owner =>
      obtain ⟨index, he⟩ := mem_edges_iff.mp ((h.owner_iff owner child).mp hp)
      exact absurd he (hno owner index)

/-- **Ownership is a forest in every context that calls can lead to.** -/
theorem ownership_forest {c : Context} (hc : Reachable c) : Forest c.graph := by
  have h := ownInv_reachable hc
  refine ⟨fun child owner => ?_, h.parent?_eq_none_iff, ?_, fun _ => h.climb_ends,
    fun id _ => h.isAbove_ends id⟩
  · constructor
    · intro hp
      obtain ⟨index, he⟩ := mem_edges_iff.mp ((h.owner_iff owner child).mp hp)
      refine ⟨⟨(owner, index), he, ?_⟩, index, he⟩
      intro slot he'
      obtain ⟨owner', index'⟩ := slot
      obtain ⟨ho, hi⟩ := h.slot_unique he' he
      exact Prod.ext ho hi
    · intro hslot
      obtain ⟨_, index, he⟩ := hslot
      exact (h.owner_iff owner child).mpr (mem_edges_iff.mpr ⟨index, he⟩)
  · intro child owner index he
    exact h.frozen owner child (mem_edges_iff.mpr ⟨index, he⟩)

/-- A record with a field of its own type, one of whose wrappers has been replaced. -/
theorem ownership_forest_linkedRecord :
    Reachable (runAll linkedRecord .fresh) ∧ Forest (runAll linkedRecord .fresh).graph
      ∧ (runAll linkedRecord .fresh).graph.edges ⟨2⟩ = [.owned ⟨3⟩]
      ∧ (runAll linkedRecord .fresh).graph.parent? ⟨1⟩ = none :=
  ⟨leads_runAll _ (.refl _), ownership_forest (leads_runAll _ (.refl _)), by decide +kernel,
    by decide +kernel⟩

end SyntaxGraph.Graph
