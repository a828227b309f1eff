import Mathlib.Logic.Basic
import SyntaxGraph.Resolution
import SyntaxGraph.Proofs.Reachable

/-!
# The order of first visits

Two walks look for placeholders: one stops at the first, the other lists them
all. Both enter the same nodes in the same order, and `visits` is that order.

What the order is can be said without a record of the nodes already entered. A
walk that only takes care not to cross its own trail, from left to right and as
deep as it can, meets every node it should, many of them often. `wander` lists
whatever it meets; its first visits are `visits`.

The two agree because a node that was entered before, and that the walk is no
longer below, has nothing new to show: everything that can be met from there has
been entered too.
-/

namespace SyntaxGraph

/-- The set with several more members. -/
def NodeSet.insertAll (s : NodeSet) (ids : List NodeId) : NodeSet := ids.foldl insert s

theorem NodeSet.mem_insertAll {id : NodeId} (ids : List NodeId) :
    ∀ {s : NodeSet}, id ∈ s.insertAll ids ↔ id ∈ s ∨ id ∈ ids := by
  induction ids with
  | nil => intro s; simp [insertAll]
  | cons a rest ih =>
    intro s
    rw [insertAll, List.foldl_cons, ← insertAll, ih, mem_insert, List.mem_cons, or_assoc, eq_comm]

/-- The first visits among many: those to nodes that are not in the set, each once. -/
def firstVisits (seen : NodeSet) (ids : List NodeId) : List NodeId :=
  (ids.filter fun id => !seen.contains id).eraseDups

theorem firstVisits_eq_nil {seen : NodeSet} {ids : List NodeId} (h : ∀ id ∈ ids, id ∈ seen) :
    firstVisits seen ids = [] := by
  have hnone : ids.filter (fun id => !seen.contains id) = [] := by
    refine List.filter_eq_nil_iff.mpr fun id hid => ?_
    simp [NodeSet.mem_def.mp (h id hid)]
  rw [firstVisits, hnone, List.eraseDups_nil]

theorem firstVisits_cons_old {seen : NodeSet} {id : NodeId} (h : id ∈ seen) (rest : List NodeId) :
    firstVisits seen (id :: rest) = firstVisits seen rest := by
  rw [firstVisits, List.filter_cons_of_neg (by simp [NodeSet.mem_def.mp h]), firstVisits]

theorem firstVisits_cons_new {seen : NodeSet} {id : NodeId} (h : id ∉ seen) (rest : List NodeId) :
    firstVisits seen (id :: rest) = id :: firstVisits (seen.insert id) rest := by
  have hnew : seen.contains id = false := by simpa [NodeSet.mem_def] using h
  rw [firstVisits, List.filter_cons_of_pos (by simp [hnew]), List.eraseDups_cons,
    List.filter_filter, firstVisits]
  congr 3
  funext other
  by_cases ho : id = other
  · simp [ho]
  · have hne : ¬ other = id := fun h => ho h.symm
    simp [ho, hne]

theorem firstVisits_append (ids rest : List NodeId) : ∀ {seen : NodeSet},
    firstVisits seen (ids ++ rest) =
      firstVisits seen ids ++ firstVisits (seen.insertAll (firstVisits seen ids)) rest := by
  induction ids with
  | nil => intro seen; rfl
  | cons id ids ih =>
    intro seen
    rw [List.cons_append]
    by_cases h : id ∈ seen
    · rw [firstVisits_cons_old h, firstVisits_cons_old h, ih]
    · rw [firstVisits_cons_new h, firstVisits_cons_new h, ih]
      rfl

namespace Graph

variable {g : Graph}

/-- The node stands for something that is still to be found out. -/
def isPlaceholder (g : Graph) (id : NodeId) : Bool := (g.kind? id).any Kind.isPlaceholder

/-- The node names the record that encloses it. -/
def isSelfReference (g : Graph) (id : NodeId) : Bool := (g.kind? id).any Kind.isSelfReference

/-- An edge leads from the one node to the other. -/
def Link (g : Graph) (a b : NodeId) : Prop := ∃ e ∈ g.edges a, e.target = b

theorem isPlaceholder_of_node? {id : NodeId} {node : Node} (h : g.node? id = some node) :
    g.isPlaceholder id = node.kind.isPlaceholder := by
  simp [isPlaceholder, kind?_of_node? h]

theorem isSelfReference_of_node? {id : NodeId} {node : Node} (h : g.node? id = some node) :
    g.isSelfReference id = node.kind.isSelfReference := by
  simp [isSelfReference, kind?_of_node? h]

/-! ## The nodes that a walk enters -/

/-- There is nothing to enter at the node. -/
def Passed (g : Graph) (seen : NodeSet) (id : NodeId) : Prop :=
  id ∉ g ∨ g.isSelfReference id = true ∨ id ∈ seen

instance (seen : NodeSet) (id : NodeId) : Decidable (g.Passed seen id) :=
  inferInstanceAs (Decidable (_ ∨ _ ∨ _))

/-- Where a walk goes on to: to the children, but a placeholder is not looked into. -/
def onward (g : Graph) (id : NodeId) : List NodeId :=
  if g.isPlaceholder id then [] else (g.edges id).map Edge.target

theorem mem_onward_iff {a b : NodeId} :
    b ∈ g.onward a ↔ g.isPlaceholder a = false ∧ g.Link a b := by
  rw [onward, Link]
  cases g.isPlaceholder a <;> simp

theorem length_onward_le (g : Graph) (id : NodeId) : (g.onward id).length ≤ g.fanOut id := by
  rw [onward]
  split
  · exact Nat.zero_le _
  · exact Nat.le_of_eq (List.length_map _)

theorem unseen_not_passed {seen : NodeSet} {id : NodeId} (weight : NodeId → Nat)
    (h : ¬ g.Passed seen id) :
    g.unseen (seen.insert id) weight + weight id = g.unseen seen weight :=
  unseen_insert weight (not_not.mp fun hg => h (.inl hg)) fun hs => h (.inr (.inr hs))

/-- The nodes entered from the pending ones on, in order. -/
def visits (g : Graph) (pending : List NodeId) (seen : NodeSet) : List NodeId :=
  match pending with
  | [] => []
  | id :: rest =>
    if _passed : g.Passed seen id then g.visits rest seen
    else id :: g.visits (g.onward id ++ rest) (seen.insert id)
termination_by pending.length + g.unseen seen g.fanOut
decreasing_by
  · simp
  · have := unseen_not_passed g.fanOut _passed
    have := length_onward_le g id
    simp
    omega

theorem visits_nil (g : Graph) (seen : NodeSet) : g.visits [] seen = [] := by rw [visits]

theorem visits_cons_passed {seen : NodeSet} {id : NodeId} (h : g.Passed seen id)
    (rest : List NodeId) : g.visits (id :: rest) seen = g.visits rest seen := by
  rw [visits, dif_pos h]

theorem visits_cons {seen : NodeSet} {id : NodeId} (h : ¬ g.Passed seen id)
    (rest : List NodeId) :
    g.visits (id :: rest) seen = id :: g.visits (g.onward id ++ rest) (seen.insert id) := by
  rw [visits, dif_neg h]

/-- What is pending later is walked over later, with everything entered before. -/
theorem visits_append (pending later : List NodeId) (seen : NodeSet) :
    g.visits (pending ++ later) seen =
      g.visits pending seen ++ g.visits later (seen.insertAll (g.visits pending seen)) := by
  induction pending, seen using visits.induct g with
  | case1 seen => rw [visits_nil]; rfl
  | case2 seen id rest hpassed ih =>
    rw [List.cons_append, visits_cons_passed hpassed, visits_cons_passed hpassed, ih]
  | case3 seen id rest hnew ih =>
    rw [List.cons_append, visits_cons hnew, visits_cons hnew, ← List.append_assoc, ih]
    rfl

theorem passed_iff {seen : NodeSet} {id : NodeId} {node : Node} (hn : g.node? id = some node) :
    g.Passed seen id ↔ node.kind.isSelfReference = true ∨ id ∈ seen := by
  have hid : id ∈ g := mem_iff_node?.mpr ⟨node, hn⟩
  rw [Passed, isSelfReference_of_node? hn]
  exact or_iff_right (not_not.mpr hid)

theorem Passed.mono {seen seen' : NodeSet} (hsub : ∀ a ∈ seen, a ∈ seen') {id : NodeId}
    (h : g.Passed seen id) : g.Passed seen' id :=
  h.imp_right fun h => h.imp_right (hsub id)

/-- A node that there is and that is no self reference is passed because it has been entered. -/
theorem Passed.mem {seen : NodeSet} {id : NodeId} (h : g.Passed seen id) (hid : id ∈ g)
    (hself : g.isSelfReference id = false) : id ∈ seen := by
  rcases h with h | h | h
  · exact absurd hid h
  · rw [hself] at h
    exact Bool.noConfusion h
  · exact h

/-- Nothing is left to enter at the pending nodes and where the walk goes on to from the nodes that
it enters. -/
theorem passed_visits (pending : List NodeId) (seen : NodeSet) :
    (∀ id ∈ pending, g.Passed (seen.insertAll (g.visits pending seen)) id)
      ∧ ∀ a ∈ g.visits pending seen, ∀ b ∈ g.onward a,
        g.Passed (seen.insertAll (g.visits pending seen)) b := by
  induction pending, seen using visits.induct g with
  | case1 seen => simp [visits_nil]
  | case2 seen id rest hpassed ih =>
    rw [visits_cons_passed hpassed]
    refine ⟨List.forall_mem_cons.mpr ⟨hpassed.mono fun a ha => ?_, ih.1⟩, ih.2⟩
    exact (NodeSet.mem_insertAll _).mpr (.inl ha)
  | case3 seen id rest hnew ih =>
    rw [visits_cons hnew]
    obtain ⟨hpending, hbelow⟩ := ih
    rw [List.forall_mem_append] at hpending
    refine ⟨List.forall_mem_cons.mpr ⟨.inr (.inr ?_), hpending.2⟩,
      List.forall_mem_cons.mpr ⟨hpending.1, hbelow⟩⟩
    exact (NodeSet.mem_insertAll _).mpr (.inr List.mem_cons_self)

/-! ## The two walks of resolution -/

/-- What a walk for placeholders does at an id without a node. -/
theorem settle_none {id : NodeId} (hn : g.node? id = none) (rest : List NodeId) (seen : NodeSet) :
    g.settle (id :: rest) seen = .error (.stray id) := by
  rw [settle]
  split
  · rfl
  · rename_i hsome
    exact absurd (hn.symm.trans hsome) (by simp)

/-- What it does at a node. -/
theorem settle_some {id : NodeId} {node : Node} (hn : g.node? id = some node)
    (rest : List NodeId) (seen : NodeSet) :
    g.settle (id :: rest) seen =
      if node.kind.isSelfReference ∨ id ∈ seen then g.settle rest seen
      else if node.kind.isPlaceholder then .ok (false, seen.insert id)
      else g.settle (node.targets ++ rest) (seen.insert id) := by
  rw [settle]
  split
  · rename_i hnone
    exact absurd (hn.symm.trans hnone) (by simp)
  · rename_i found hsome
    obtain rfl := Option.some.inj (hn.symm.trans hsome)
    rfl

theorem placeholders_none {id : NodeId} (hn : g.node? id = none) (rest : List NodeId)
    (seen : NodeSet) : g.placeholders (id :: rest) seen = .error (.stray id) := by
  rw [placeholders]
  split
  · rfl
  · rename_i hsome
    exact absurd (hn.symm.trans hsome) (by simp)

theorem placeholders_some {id : NodeId} {node : Node} (hn : g.node? id = some node)
    (rest : List NodeId) (seen : NodeSet) :
    g.placeholders (id :: rest) seen =
      if node.kind.isSelfReference ∨ id ∈ seen then g.placeholders rest seen
      else if node.kind.isPlaceholder then
        (g.placeholders rest (seen.insert id)).map (id :: ·)
      else g.placeholders (node.targets ++ rest) (seen.insert id) := by
  rw [placeholders]
  split
  · rename_i hnone
    exact absurd (hn.symm.trans hnone) (by simp)
  · rename_i found hsome
    obtain rfl := Option.some.inj (hn.symm.trans hsome)
    rfl

theorem settle_cons_passed {seen : NodeSet} {id : NodeId} (hid : id ∈ g) (h : g.Passed seen id)
    (rest : List NodeId) : g.settle (id :: rest) seen = g.settle rest seen := by
  obtain ⟨node, hn⟩ := mem_iff_node?.mp hid
  rw [settle_some hn, if_pos ((passed_iff hn).mp h)]

theorem settle_cons {seen : NodeSet} {id : NodeId} (h : ¬ g.Passed seen id) (rest : List NodeId) :
    g.settle (id :: rest) seen =
      if g.isPlaceholder id then .ok (false, seen.insert id)
      else g.settle (g.onward id ++ rest) (seen.insert id) := by
  obtain ⟨node, hn⟩ := mem_iff_node?.mp (not_not.mp fun hid => h (.inl hid))
  rw [settle_some hn, if_neg (mt (passed_iff hn).mpr h), onward, isPlaceholder_of_node? hn,
    edges_of_node? hn]
  split
  · rfl
  · rfl

theorem placeholders_cons_passed {seen : NodeSet} {id : NodeId} (hid : id ∈ g)
    (h : g.Passed seen id) (rest : List NodeId) :
    g.placeholders (id :: rest) seen = g.placeholders rest seen := by
  obtain ⟨node, hn⟩ := mem_iff_node?.mp hid
  rw [placeholders_some hn, if_pos ((passed_iff hn).mp h)]

theorem placeholders_cons {seen : NodeSet} {id : NodeId} (h : ¬ g.Passed seen id)
    (rest : List NodeId) :
    g.placeholders (id :: rest) seen =
      if g.isPlaceholder id then (g.placeholders rest (seen.insert id)).map (id :: ·)
      else g.placeholders (g.onward id ++ rest) (seen.insert id) := by
  obtain ⟨node, hn⟩ := mem_iff_node?.mp (not_not.mp fun hid => h (.inl hid))
  rw [placeholders_some hn, if_neg (mt (passed_iff hn).mpr h), onward, isPlaceholder_of_node? hn,
    edges_of_node? hn]
  split
  · rfl
  · rfl

theorem onward_mem (hclosed : Closed g) {a b : NodeId} (h : b ∈ g.onward a) : b ∈ g := by
  obtain ⟨_, e, he, rfl⟩ := mem_onward_iff.mp h
  exact hclosed a e he

/-- **The walk that stops at the first placeholder** answers whether there is none among the nodes
that it would enter. -/
theorem settle_eq_ok (hclosed : Closed g) (pending : List NodeId) (seen : NodeSet) :
    (∀ id ∈ pending, id ∈ g) → ∃ answer seen', g.settle pending seen = .ok (answer, seen')
      ∧ (answer = true ↔ ∀ id ∈ g.visits pending seen, g.isPlaceholder id = false) := by
  induction pending, seen using visits.induct g with
  | case1 seen => exact fun _ => ⟨true, seen, by rw [settle], by simp [visits_nil]⟩
  | case2 seen id rest hpassed ih =>
    intro hpending
    obtain ⟨hid, hrest⟩ := List.forall_mem_cons.mp hpending
    rw [settle_cons_passed hid hpassed, visits_cons_passed hpassed]
    exact ih hrest
  | case3 seen id rest hnew ih =>
    intro hpending
    obtain ⟨_, hrest⟩ := List.forall_mem_cons.mp hpending
    rw [settle_cons hnew, visits_cons hnew, List.forall_mem_cons]
    cases hp : g.isPlaceholder id with
    | true => exact ⟨false, seen.insert id, if_pos rfl, by simp⟩
    | false =>
      obtain ⟨answer, seen', h, hiff⟩ :=
        ih (List.forall_mem_append.mpr ⟨fun next hn => onward_mem hclosed hn, hrest⟩)
      exact ⟨answer, seen', h, by simp [hiff]⟩

/-- **The walk that lists the placeholders** enters the same nodes, and all of them. -/
theorem placeholders_eq_ok (hclosed : Closed g) (pending : List NodeId) (seen : NodeSet) :
    (∀ id ∈ pending, id ∈ g) →
      g.placeholders pending seen = .ok ((g.visits pending seen).filter g.isPlaceholder) := by
  induction pending, seen using visits.induct g with
  | case1 seen => intro _; rw [placeholders, visits_nil, List.filter_nil]
  | case2 seen id rest hpassed ih =>
    intro hpending
    obtain ⟨hid, hrest⟩ := List.forall_mem_cons.mp hpending
    rw [placeholders_cons_passed hid hpassed, visits_cons_passed hpassed]
    exact ih hrest
  | case3 seen id rest hnew ih =>
    intro hpending
    obtain ⟨_, hrest⟩ := List.forall_mem_cons.mp hpending
    have hrest := ih (List.forall_mem_append.mpr ⟨fun next hn => onward_mem hclosed hn, hrest⟩)
    rw [placeholders_cons hnew, visits_cons hnew]
    cases hp : g.isPlaceholder id with
    | true =>
      -- it is listed and not looked into, so the walk goes on with the rest
      have hnone : g.onward id = [] := if_pos hp
      rw [hnone, List.nil_append] at hrest ⊢
      rw [if_pos rfl, hrest, List.filter_cons_of_pos hp]
      rfl
    | false =>
      rw [if_neg (by simp), hrest, List.filter_cons_of_neg (by simp [hp])]

/-! ## A walk without a record -/

/-- Everything that is met from a node on, again and again, from left to right and as deep as the
walk can go without crossing its own trail. -/
def wander (g : Graph) (id : NodeId) (trail : NodeSet) : List NodeId :=
  if _passed : g.Passed trail id then []
  else id :: (g.onward id).flatMap fun next => g.wander next (trail.insert id)
termination_by g.unseen trail fun _ => 1
decreasing_by
  have := unseen_not_passed (fun _ => 1) _passed
  omega

/-- The walk is done with everything that it has entered but is no longer below: there is nothing
to enter where it would go on to from there. -/
def Explored (g : Graph) (trail seen : NodeSet) : Prop :=
  ∀ a ∈ seen, a ∉ trail → ∀ b ∈ g.onward a, g.Passed seen b

theorem wander_subset {trail seen : NodeSet} (h : g.Explored trail seen) (id : NodeId)
    (trail' : NodeSet) : (∀ a ∈ trail, a ∈ trail') → g.Passed seen id →
      ∀ v ∈ g.wander id trail', v ∈ seen := by
  induction id, trail' using wander.induct g with
  | case1 id trail' hpassed => intro _ _; rw [wander, dif_pos hpassed]; simp
  | case2 id trail' hnew ih =>
    intro hsub hid
    -- the node is in the arena and no self reference, so the walk must have entered it
    have hseen : id ∈ seen :=
      (hid.resolve_left fun hg => hnew (.inl hg)).resolve_left fun hs => hnew (.inr (.inl hs))
    have hoff : id ∉ trail := fun ht => hnew (.inr (.inr (hsub id ht)))
    rw [wander, dif_neg hnew]
    refine List.forall_mem_cons.mpr ⟨hseen, fun v hv => ?_⟩
    -- and then it must have gone on from there
    obtain ⟨next, hnext, hv⟩ := List.mem_flatMap.mp hv
    refine ih next (fun a ha => ?_) (h id hseen hoff next hnext) v hv
    exact NodeSet.mem_insert.mpr (.inl (hsub a ha))

/-- Below the trail, the walk that keeps a record makes the first visits among those to the nodes
met, and is done with them. -/
def Agrees (g : Graph) (trail : NodeSet) (pending met : List NodeId) : Prop :=
  ∀ seen : NodeSet, (∀ a ∈ trail, a ∈ seen) → g.Explored trail seen →
    g.visits pending seen = firstVisits seen met
      ∧ g.Explored trail (seen.insertAll (g.visits pending seen))

theorem agrees_flatMap {trail : NodeSet} {walk : NodeId → List NodeId} {pending : List NodeId}
    (h : ∀ id ∈ pending, g.Agrees trail [id] (walk id)) :
    g.Agrees trail pending (pending.flatMap walk) := by
  induction pending with
  | nil =>
    intro seen _ hexplored
    rw [visits_nil]
    exact ⟨rfl, hexplored⟩
  | cons id rest ih =>
    intro seen hsub hexplored
    obtain ⟨hid, hrest⟩ := List.forall_mem_cons.mp h
    obtain ⟨hfirst, hexplored⟩ := hid seen hsub hexplored
    obtain ⟨hlater, hexplored⟩ := ih hrest _
      (fun a ha => (NodeSet.mem_insertAll _).mpr (.inl (hsub a ha))) hexplored
    have happend := visits_append (g := g) [id] rest seen
    rw [List.singleton_append] at happend
    refine ⟨?_, ?_⟩
    · rw [happend, hlater, List.flatMap_cons, firstVisits_append, ← hfirst]
    · rw [happend, NodeSet.insertAll, List.foldl_append]
      exact hexplored

/-- **A record of the nodes entered leaves out repeated visits, and nothing else.** -/
theorem agrees_wander (id : NodeId) (trail : NodeSet) :
    g.Agrees trail [id] (g.wander id trail) := by
  induction id, trail using wander.induct g with
  | case1 id trail hpassed =>
    intro seen hsub hexplored
    rw [wander, dif_pos hpassed, visits_cons_passed (hpassed.mono hsub), visits_nil]
    exact ⟨rfl, hexplored⟩
  | case2 id trail hnew ih =>
    intro seen hsub hexplored
    by_cases hpassed : g.Passed seen id
    · -- the walk has been here before, and is not below the node now
      rw [visits_cons_passed hpassed, visits_nil]
      refine ⟨(firstVisits_eq_nil fun v hv => ?_).symm, hexplored⟩
      exact wander_subset hexplored id trail (fun a ha => ha) hpassed v hv
    · have hseen : id ∉ seen := fun hs => hpassed (.inr (.inr hs))
      have hsub' : ∀ a ∈ trail.insert id, a ∈ seen.insert id := fun a ha =>
        NodeSet.mem_insert.mpr ((NodeSet.mem_insert.mp ha).imp_left (hsub a))
      have hexplored' : g.Explored (trail.insert id) (seen.insert id) := by
        intro a ha hoff b hb
        have hold : a ∈ seen := (NodeSet.mem_insert.mp ha).resolve_right fun he =>
          hoff (NodeSet.mem_insert.mpr (.inr he))
        have hoff' : a ∉ trail := fun ht => hoff (NodeSet.mem_insert.mpr (.inl ht))
        exact (hexplored a hold hoff' b hb).mono fun c hc => NodeSet.mem_insert.mpr (.inl hc)
      obtain ⟨hvisits, hafter⟩ := agrees_flatMap (fun next _ => ih next) _ hsub' hexplored'
      rw [visits_cons hpassed, List.append_nil, wander, dif_neg hnew, firstVisits_cons_new hseen,
        hvisits]
      refine ⟨rfl, ?_⟩
      rw [← hvisits]
      intro a ha hoff b hb
      by_cases he : a = id
      · -- on the way back up, the node leaves the trail: its children have all been pending
        subst he
        exact (passed_visits (g.onward a) (seen.insert a)).1 b hb
      · refine hafter a ha (fun ht => ?_) b hb
        rcases NodeSet.mem_insert.mp ht with ht | ht
        · exact hoff ht
        · exact he ht.symm

/-- **The nodes entered are the first visits** of the walk that keeps no record. -/
theorem visits_eq_eraseDups (id : NodeId) :
    g.visits [id] .empty = (g.wander id .empty).eraseDups := by
  obtain ⟨h, _⟩ := agrees_wander (g := g) id .empty .empty (by simp) fun a ha => by simp at ha
  have hall : (g.wander id .empty).filter (fun a => !NodeSet.empty.contains a) =
      g.wander id .empty := by
    refine List.filter_eq_self.mpr fun a _ => ?_
    simp [NodeSet.contains, NodeSet.empty]
  rw [h, firstVisits, hall]

end Graph

end SyntaxGraph
