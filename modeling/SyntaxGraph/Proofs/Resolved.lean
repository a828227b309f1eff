import Mathlib.Data.List.Nodup
import SyntaxGraph.Proofs.FirstVisits

/-!
# Resolution is a matter of paths

A node is resolved when no path leads from it to a placeholder. Paths follow
owned children and references alike, and no path leads through a self reference.
This is what the walk that looks for a placeholder decides, however shared and
cyclic the graph is, although it takes a node it has entered before for
resolved.

The other walk lists placeholders, and lists exactly those with a path to them
that meets no placeholder on the way.
-/

namespace SyntaxGraph

theorem nodup_eraseDups (ids : List NodeId) : ids.eraseDups.Nodup := by
  induction h : ids.length using Nat.strongRecOn generalizing ids with
  | ind n ih =>
    cases ids with
    | nil => exact List.nodup_nil
    | cons id rest =>
      rw [List.eraseDups_cons]
      refine List.nodup_cons.mpr ⟨fun hid => ?_, ih _ ?_ _ rfl⟩
      · simpa using List.mem_eraseDups.mp hid
      · have := List.length_filter_le (fun other => !other == id) rest
        rw [List.length_cons] at h
        omega

namespace Graph

variable {g : Graph}

/-! ## Paths -/

/-- A path leads from the one node to the other. No node of it is a self reference, and none before
the last is one to stop at. -/
inductive Path (g : Graph) (stop : NodeId → Bool) : NodeId → NodeId → Prop where
  | here {a : NodeId} : g.isSelfReference a = false → Path g stop a a
  | step {a b c : NodeId} : g.isSelfReference a = false → stop a = false → g.Link a b →
    Path g stop b c → Path g stop a c

/-- A path leads from the one node to the other. -/
def Reaches (g : Graph) : NodeId → NodeId → Prop := g.Path fun _ => false

/-- A path on which no placeholder comes before the last node leads from the one node to the
other. -/
def ReachesFirst (g : Graph) : NodeId → NodeId → Prop := g.Path g.isPlaceholder

/-- **A node is resolved** if no path leads from it to a placeholder. -/
def Resolved (g : Graph) (id : NodeId) : Prop :=
  ¬ ∃ p, g.Reaches id p ∧ g.isPlaceholder p = true

theorem reaches_of_reachesFirst {a b : NodeId} (h : g.ReachesFirst a b) : g.Reaches a b := by
  induction h with
  | here ha => exact .here ha
  | step ha _ hlink _ ih => exact .step ha rfl hlink ih

/-- Where a path leads to a placeholder, the first one on it is found first. -/
theorem exists_reachesFirst {a b : NodeId} (h : g.Reaches a b) :
    g.isPlaceholder b = true → ∃ p, g.ReachesFirst a p ∧ g.isPlaceholder p = true := by
  induction h with
  | here ha => exact fun hp => ⟨_, .here ha, hp⟩
  | @step a _ _ ha _ hlink _ ih =>
    intro hp
    cases hfirst : g.isPlaceholder a with
    | true =>
      -- the path may stop here already
      exact ⟨a, .here ha, hfirst⟩
    | false =>
      obtain ⟨p, hpath, hp⟩ := ih hp
      exact ⟨p, .step ha hfirst hlink hpath, hp⟩

theorem resolved_iff_reachesFirst {id : NodeId} :
    g.Resolved id ↔ ∀ p, g.ReachesFirst id p → g.isPlaceholder p = false := by
  constructor
  · intro h p hpath
    cases hp : g.isPlaceholder p with
    | false => rfl
    | true => exact absurd ⟨p, reaches_of_reachesFirst hpath, hp⟩ h
  · intro h hreach
    obtain ⟨p, hpath, hp⟩ := hreach
    obtain ⟨q, hfirst, hq⟩ := exists_reachesFirst hpath hp
    rw [h q hfirst] at hq
    exact Bool.noConfusion hq

/-! ## What a walk enters -/

/-- Whatever a walk enters lies on a path from where it set out. -/
theorem reachesFirst_of_mem_visits (pending : List NodeId) (seen : NodeSet) :
    ∀ v ∈ g.visits pending seen, ∃ id ∈ pending, g.ReachesFirst id v := by
  induction pending, seen using visits.induct g with
  | case1 seen => simp [visits_nil]
  | case2 seen id rest hpassed ih =>
    rw [visits_cons_passed hpassed]
    intro v hv
    obtain ⟨a, ha, hpath⟩ := ih v hv
    exact ⟨a, List.mem_cons_of_mem _ ha, hpath⟩
  | case3 seen id rest hnew ih =>
    have hself : g.isSelfReference id = false := by
      cases hs : g.isSelfReference id with
      | false => rfl
      | true => exact absurd (.inr (.inl hs)) hnew
    rw [visits_cons hnew]
    intro v hv
    rcases List.mem_cons.mp hv with rfl | hv
    · exact ⟨v, List.mem_cons_self, .here hself⟩
    · obtain ⟨a, ha, hpath⟩ := ih v hv
      rcases List.mem_append.mp ha with ha | ha
      · -- the walk came there through the node entered now
        obtain ⟨hplaceholder, hlink⟩ := mem_onward_iff.mp ha
        exact ⟨id, List.mem_cons_self, .step hself hplaceholder hlink hpath⟩
      · exact ⟨a, List.mem_cons_of_mem _ ha, hpath⟩

/-- Whatever lies on a path from a node that a walk is done with was entered. -/
theorem mem_of_reachesFirst (hclosed : Closed g) {seen : NodeSet}
    (hseen : ∀ a ∈ seen, ∀ b ∈ g.onward a, g.Passed seen b) {a b : NodeId}
    (h : g.ReachesFirst a b) : a ∈ g → g.Passed seen a → b ∈ seen := by
  induction h with
  | here hself => exact fun hc hpassed => hpassed.mem hc hself
  | step hself hplaceholder hlink _ ih =>
    intro hc hpassed
    have hnext := mem_onward_iff.mpr ⟨hplaceholder, hlink⟩
    exact ih (onward_mem hclosed hnext) (hseen _ (hpassed.mem hc hself) _ hnext)

/-- **A walk enters what it can reach.** -/
theorem mem_visits_iff (hclosed : Closed g) {root : NodeId} (hroot : root ∈ g) (v : NodeId) :
    v ∈ g.visits [root] .empty ↔ g.ReachesFirst root v := by
  have hall : ∀ {a}, a ∈ NodeSet.empty.insertAll (g.visits [root] .empty) ↔
      a ∈ g.visits [root] .empty := by
    intro a
    simp [NodeSet.mem_insertAll]
  constructor
  · intro hv
    obtain ⟨id, hid, hpath⟩ := reachesFirst_of_mem_visits [root] .empty v hv
    exact List.mem_singleton.mp hid ▸ hpath
  · intro hpath
    obtain ⟨hpending, honward⟩ := passed_visits (g := g) [root] .empty
    refine hall.mp (mem_of_reachesFirst hclosed (fun a ha => honward a (hall.mp ha)) hpath hroot ?_)
    exact hpending root (List.mem_singleton.mpr rfl)

/-- **The question whether a node is resolved** has an answer, and it is the right one. -/
theorem isResolved_eq_ok (hclosed : Closed g) {root : NodeId} (hroot : root ∈ g) :
    ∃ answer, g.isResolved root = .ok answer ∧ (answer = true ↔ g.Resolved root) := by
  obtain ⟨answer, seen, h, hiff⟩ := settle_eq_ok hclosed [root] .empty (by simpa using hroot)
  refine ⟨answer, by simp [isResolved, isResolvedFrom, h, Except.map], ?_⟩
  rw [hiff, resolved_iff_reachesFirst]
  simp only [mem_visits_iff hclosed hroot]

theorem isResolved_eq_true_iff (hclosed : Closed g) {root : NodeId} (hroot : root ∈ g) :
    g.isResolved root = .ok true ↔ g.Resolved root := by
  obtain ⟨answer, h, hiff⟩ := isResolved_eq_ok hclosed hroot
  rw [h, Except.ok.injEq, hiff]

/-! ## What keeps a node from being resolved -/

/-- The list names what keeps the node from being resolved. -/
structure Obstacles (g : Graph) (root : NodeId) (found : List NodeId) : Prop where
  /-- Each of them once. -/
  nodup : found.Nodup
  /-- They are the placeholders that a path leads to and no placeholder before them. -/
  mem_iff : ∀ p, p ∈ found ↔ g.isPlaceholder p = true ∧ g.ReachesFirst root p
  /-- They come in the order of the first visits of a walk from left to right that goes as deep as
  it can. -/
  order : found = (g.wander root .empty).eraseDups.filter g.isPlaceholder
  /-- There are none if and only if the node is resolved. -/
  eq_nil_iff : found = [] ↔ g.isResolved root = .ok true

theorem obstacles_visits (hclosed : Closed g) {root : NodeId} (hroot : root ∈ g) :
    g.Obstacles root ((g.visits [root] .empty).filter g.isPlaceholder) where
  nodup := by
    rw [visits_eq_eraseDups]
    exact (nodup_eraseDups _).filter _
  mem_iff p := by rw [List.mem_filter, mem_visits_iff hclosed hroot, and_comm]
  order := by rw [visits_eq_eraseDups]
  eq_nil_iff := by
    rw [isResolved_eq_true_iff hclosed hroot, resolved_iff_reachesFirst, List.filter_eq_nil_iff]
    simp only [mem_visits_iff hclosed hroot, Bool.not_eq_true]

/-- **The two walks of resolution** end in every context that calls can lead to. The one decides
whether a path leads to a placeholder, and the other lists the placeholders that are in the way. -/
theorem resolution_walks {c : Context} (hc : Reachable c) (root : NodeId)
    (hroot : root ∈ c.graph) :
    (∃ answer, c.graph.isResolved root = .ok answer
        ∧ (answer = true ↔ ¬ ∃ p, c.graph.Reaches root p ∧ c.graph.isPlaceholder p = true))
      ∧ ∃ found, c.graph.unresolvedNodes root = .ok found ∧ c.graph.Obstacles root found := by
  have hclosed := closed_reachable hc
  refine ⟨isResolved_eq_ok hclosed hroot, _, ?_, obstacles_visits hclosed hroot⟩
  exact placeholders_eq_ok hclosed [root] .empty (by simpa using hroot)

/-- A record with a field of its own type, a field of an unknown type, and two fields of a type that
is only named. The last two share the named type. -/
def unfinishedRecord : List Command := [
  .make (.begin (.type .struct)) .dummy,
  .make (.build (.node (.type .unknown) [])) .dummy,
  .make (.build (.node (.qualifiedType .none) [.owned ⟨1⟩])) .dummy,
  .make (.build (.node (.declaration (.field (.text "left"))) [.owned ⟨2⟩])) .dummy,
  .make (.build (.node (.type (.name (.text "Tree"))) [])) .dummy,
  .make (.build (.node (.qualifiedType .none) [.owned ⟨4⟩])) .dummy,
  .make (.build (.node (.declaration (.field (.text "right"))) [.owned ⟨5⟩])) .dummy,
  .make (.build (.node (.qualifiedType .none) [.ref ⟨0⟩])) .dummy,
  .make (.build (.node (.declaration (.field (.text "next"))) [.owned ⟨7⟩])) .dummy,
  .make (.build (.node (.declaration (.field (.text "last"))) [.ref ⟨5⟩])) .dummy,
  .push ⟨0⟩ (.owned ⟨8⟩),
  .push ⟨0⟩ (.owned ⟨6⟩),
  .push ⟨0⟩ (.owned ⟨9⟩),
  .push ⟨0⟩ (.owned ⟨3⟩)]

/-- The named type is met twice and listed once, before the unknown one. -/
theorem resolution_walks_unfinishedRecord :
    Reachable (runAll unfinishedRecord .fresh)
      ∧ (runAll unfinishedRecord .fresh).graph.isResolved ⟨0⟩ = .ok false
      ∧ (runAll unfinishedRecord .fresh).graph.Obstacles ⟨0⟩ [⟨4⟩, ⟨1⟩] := by
  have hreach : Reachable (runAll unfinishedRecord .fresh) := leads_runAll _ (.refl _)
  obtain ⟨_, found, hfound, hobstacles⟩ :=
    resolution_walks hreach ⟨0⟩ (by decide +kernel)
  have hlist : (runAll unfinishedRecord .fresh).graph.unresolvedNodes ⟨0⟩ = .ok [⟨4⟩, ⟨1⟩] := by
    decide +kernel
  obtain rfl := Except.ok.inj (hfound.symm.trans hlist)
  exact ⟨hreach, by decide +kernel, hobstacles⟩

end Graph

end SyntaxGraph
