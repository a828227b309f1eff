import Mathlib.Data.List.Pairwise
import Mathlib.Data.List.Perm.Subperm
import SyntaxGraph.Proofs.Bisimulation

/-!
# The first node of every class

To be rid of copies one keeps the first node of every class of equal nodes. A
node is compared with the nodes kept so far, and never with the others. This is
enough because equality is an equivalence: whatever was left out equals
something that was kept, so a node that differs from what was kept differs from
everything that came before it.

What is kept is one node of each class, whichever comes first. It depends on the
order which one that is, but not how many there are.
-/

namespace SyntaxGraph.Graph

variable {g : Graph}

/-! ## Equal and different nodes -/

/-- **To be equal is an equivalence**, on ids that name no node too. -/
theorem isEqual_equivalence (hclosed : Closed g) :
    Equivalence fun a b => g.isEqual a b = .ok true where
  refl a := isEqual_eq_ok_iff.mpr (isEqualFrom_self g a [])
  symm h := isEqual_swap hclosed h
  trans {a b c} hab hbc := by
    rcases comparable_of_isEqual hab with rfl | ⟨ha, hb⟩
    · exact hbc
    rcases comparable_of_isEqual hbc with rfl | ⟨_, hc⟩
    · exact hab
    · exact (equalityExact_of_closed hclosed).trans a ha b hb c hc hab hbc

theorem Comparable.symm {a b : NodeId} (h : g.Comparable a b) : g.Comparable b a :=
  h.imp Eq.symm And.symm

instance (g : Graph) : Std.Symm g.Comparable := ⟨fun _ _ => Comparable.symm⟩

theorem Comparable.trans {a b c : NodeId} (hab : g.Comparable a b) (hbc : g.Comparable b c) :
    g.Comparable a c := by
  rcases hab with rfl | ⟨ha, hb⟩
  · exact hbc
  · rcases hbc with rfl | ⟨_, hc⟩
    · exact .inr ⟨ha, hb⟩
    · exact .inr ⟨ha, hc⟩

/-- A node equals all that a node equal to it equals, and differs from all that it differs from. -/
theorem isEqual_of_isEqual (hclosed : Closed g) {a b c : NodeId} {answer : Bool}
    (hab : g.isEqual a b = .ok true) (hac : g.isEqual a c = .ok answer) :
    g.isEqual b c = .ok answer := by
  have hequiv := isEqual_equivalence hclosed
  have hcomp : g.Comparable b c :=
    (comparable_of_isEqual hab).symm.trans (comparable_of_isEqual hac)
  obtain ⟨answer', h⟩ := hcomp.isEqualFrom hclosed []
  have hbc : g.isEqual b c = .ok answer' := isEqual_eq_ok_iff.mpr h
  have hsame : answer' = true ↔ answer = true := by
    constructor
    · rintro rfl
      exact Except.ok.inj (hac.symm.trans (hequiv.trans hab hbc))
    · rintro rfl
      exact Except.ok.inj (hbc.symm.trans (hequiv.trans (hequiv.symm hab) hac))
  rw [hbc, Bool.eq_iff_iff.mpr hsame]

/-! ## One node against several -/

theorem isEqualToAny_eq_ok {id : NodeId} {answer : Bool} (found : List NodeId) :
    g.isEqualToAny id found = .ok answer →
      (answer = true → ∃ rep ∈ found, g.isEqual rep id = .ok true)
        ∧ (answer = false → ∀ rep ∈ found, g.isEqual rep id = .ok false) := by
  induction found with
  | nil =>
    intro h
    obtain rfl := Except.ok.inj h
    simp
  | cons candidate rest ih =>
    intro h
    rw [isEqualToAny] at h
    cases hfirst : g.isEqual candidate id with
    | error fault => simp [hfirst] at h
    | ok equal =>
      rw [hfirst] at h
      cases equal with
      | true =>
        obtain rfl := Except.ok.inj h
        exact ⟨fun _ => ⟨candidate, List.mem_cons_self, hfirst⟩, fun hf => Bool.noConfusion hf⟩
      | false =>
        obtain ⟨hsome, hnone⟩ := ih h
        refine ⟨fun ht => ?_, fun hf => List.forall_mem_cons.mpr ⟨hfirst, hnone hf⟩⟩
        obtain ⟨rep, hrep, hequal⟩ := hsome ht
        exact ⟨rep, List.mem_cons_of_mem _ hrep, hequal⟩

theorem isEqualToAny_ends (hclosed : Closed g) {id : NodeId} {found : List NodeId}
    (h : ∀ rep ∈ found, g.Comparable rep id) : ∃ answer, g.isEqualToAny id found = .ok answer := by
  induction found with
  | nil => exact ⟨false, rfl⟩
  | cons candidate rest ih =>
    obtain ⟨hfirst, hrest⟩ := List.forall_mem_cons.mp h
    obtain ⟨equal, hequal⟩ := hfirst.isEqualFrom hclosed []
    rw [isEqualToAny, isEqual_eq_ok_iff.mpr hequal]
    cases equal with
    | true => exact ⟨true, rfl⟩
    | false => exact ih hrest

theorem isEqualToAny_of_differ {id : NodeId} {found : List NodeId}
    (h : ∀ rep ∈ found, g.isEqual rep id = .ok false) : g.isEqualToAny id found = .ok false := by
  induction found with
  | nil => rfl
  | cons candidate rest ih =>
    obtain ⟨hfirst, hrest⟩ := List.forall_mem_cons.mp h
    rw [isEqualToAny, hfirst]
    exact ih hrest

/-! ## What is kept -/

/-- The node equals none of those before its position in the list. -/
def IsFirst (g : Graph) (ids : List NodeId) (p : NodeId × Nat) : Prop :=
  ∀ earlier ∈ ids.take p.2, g.isEqual earlier p.1 = .ok false

instance (ids : List NodeId) : DecidablePred (g.IsFirst ids) := fun p =>
  inferInstanceAs (Decidable (∀ earlier ∈ ids.take p.2, g.isEqual earlier p.1 = .ok false))

/-- The nodes of a list that equal none before them, in order. -/
def firsts (g : Graph) (ids : List NodeId) : List NodeId :=
  (ids.zipIdx.filter fun p => g.IsFirst ids p).map Prod.fst

theorem firsts_concat (ids : List NodeId) (id : NodeId) :
    g.firsts (ids ++ [id]) =
      g.firsts ids ++ if g.IsFirst ids (id, ids.length) then [id] else [] := by
  have hbefore : ∀ p : NodeId × Nat, p.2 ≤ ids.length →
      (g.IsFirst (ids ++ [id]) p ↔ g.IsFirst ids p) := by
    intro p hle
    rw [IsFirst, List.take_append_of_le_length hle, IsFirst]
  have hold : ids.zipIdx.filter (fun p => g.IsFirst (ids ++ [id]) p) =
      ids.zipIdx.filter fun p => g.IsFirst ids p :=
    List.filter_congr fun p hp => decide_eq_decide.mpr
      (hbefore p (Nat.le_of_lt (List.snd_lt_of_mem_zipIdx hp)))
  have hnew := hbefore (id, ids.length) (Nat.le_refl _)
  rw [firsts, List.zipIdx_append, List.filter_append, List.map_append, hold, firsts]
  congr 1
  by_cases h : g.IsFirst ids (id, ids.length)
  · simp [h, hnew]
  · simp [h, hnew]

theorem mem_of_mem_firsts {ids : List NodeId} {id : NodeId} (h : id ∈ g.firsts ids) : id ∈ ids := by
  obtain ⟨⟨id', index⟩, hp, rfl⟩ := List.mem_map.mp h
  exact (List.mem_zipIdx' (List.mem_filter.mp hp).1).2 ▸ List.getElem_mem _

/-- The nodes kept represent those that were looked at. -/
structure Represents (g : Graph) (found ids : List NodeId) : Prop where
  /-- They are the first of each class. -/
  eq_firsts : found = g.firsts ids
  /-- Every node that was looked at equals one of them. -/
  covers : ∀ id ∈ ids, ∃ rep ∈ found, g.isEqual rep id = .ok true
  /-- No two of them are equal. -/
  apart : found.Pairwise fun a b => g.isEqual a b = .ok false

theorem represents_nil (g : Graph) : g.Represents [] [] where
  eq_firsts := rfl
  covers _ h := absurd h List.not_mem_nil
  apart := .nil

/-- A node that equals one of those kept is left out. -/
theorem Represents.skip {found ids : List NodeId} {id : NodeId} (h : g.Represents found ids)
    (hequal : ∃ rep ∈ found, g.isEqual rep id = .ok true) : g.Represents found (ids ++ [id]) where
  eq_firsts := by
    obtain ⟨rep, hrep, hequal⟩ := hequal
    have hnot : ¬ g.IsFirst ids (id, ids.length) := by
      intro hfirst
      have hold : rep ∈ ids.take ids.length :=
        List.take_length.symm ▸ mem_of_mem_firsts (h.eq_firsts ▸ hrep)
      exact Bool.noConfusion (Except.ok.inj (hequal.symm.trans (hfirst rep hold)))
    rw [firsts_concat, if_neg hnot, List.append_nil]
    exact h.eq_firsts
  covers := List.forall_mem_append.mpr ⟨h.covers, by simpa using hequal⟩
  apart := h.apart

/-- A node that differs from all that are kept differs from all that were looked at, and is kept. -/
theorem Represents.keep (hclosed : Closed g) {found ids : List NodeId} {id : NodeId}
    (h : g.Represents found ids) (hdiffer : ∀ rep ∈ found, g.isEqual rep id = .ok false) :
    g.Represents (found ++ [id]) (ids ++ [id]) where
  eq_firsts := by
    have hfirst : g.IsFirst ids (id, ids.length) := by
      intro earlier hearlier
      obtain ⟨rep, hrep, hequal⟩ := h.covers earlier (List.mem_of_mem_take hearlier)
      exact isEqual_of_isEqual hclosed hequal (hdiffer rep hrep)
    rw [firsts_concat, if_pos hfirst, h.eq_firsts]
  covers := by
    refine List.forall_mem_append.mpr ⟨fun a ha => ?_, fun a ha => ?_⟩
    · obtain ⟨rep, hrep, hequal⟩ := h.covers a ha
      exact ⟨rep, List.mem_append_left _ hrep, hequal⟩
    · obtain rfl := List.mem_singleton.mp ha
      exact ⟨a, List.mem_append_right _ ha, (isEqual_equivalence hclosed).refl a⟩
  apart := List.pairwise_append.mpr ⟨h.apart, List.pairwise_singleton _ _, fun rep hrep a ha =>
    List.mem_singleton.mp ha ▸ hdiffer rep hrep⟩

/-- **Where it ends, the loop keeps what represents the list.** -/
theorem Represents.dedupFrom (hclosed : Closed g) (rest : List NodeId) :
    ∀ {found ids result : List NodeId}, g.Represents found ids →
      g.dedupFrom found rest = .ok result → g.Represents result (ids ++ rest) := by
  induction rest with
  | nil =>
    intro found ids result h hrun
    obtain rfl := Except.ok.inj hrun
    rwa [List.append_nil]
  | cons id rest ih =>
    intro found ids result h hrun
    rw [Graph.dedupFrom] at hrun
    rw [List.append_cons]
    cases hany : g.isEqualToAny id found with
    | error fault => simp [hany] at hrun
    | ok equal =>
      obtain ⟨hsome, hnone⟩ := isEqualToAny_eq_ok found hany
      rw [hany] at hrun
      cases equal with
      | true => exact ih (h.skip (hsome rfl)) hrun
      | false => exact ih (h.keep hclosed (hnone rfl)) hrun

theorem dedupFrom_ends (hclosed : Closed g) (rest : List NodeId) : ∀ {found : List NodeId},
    (∀ a ∈ found ++ rest, ∀ b ∈ rest, g.Comparable a b) →
      ∃ result, g.dedupFrom found rest = .ok result := by
  induction rest with
  | nil => exact fun _ => ⟨_, rfl⟩
  | cons id rest ih =>
    intro found h
    have hid : ∀ rep ∈ found, g.Comparable rep id := fun rep hrep =>
      h rep (List.mem_append_left _ hrep) id List.mem_cons_self
    obtain ⟨equal, hany⟩ := isEqualToAny_ends hclosed hid
    rw [dedupFrom, hany]
    cases equal with
    | true =>
      refine ih fun a ha b hb => h a ?_ b (List.mem_cons_of_mem _ hb)
      exact (List.mem_append.mp ha).elim (List.mem_append_left _)
        fun ha => List.mem_append_right _ (List.mem_cons_of_mem _ ha)
    | false =>
      refine ih fun a ha b hb => h a ?_ b (List.mem_cons_of_mem _ hb)
      rwa [← List.append_cons] at ha

/-- Nodes no two of which are equal are all kept. -/
theorem dedupFrom_of_apart (rest : List NodeId) : ∀ {found : List NodeId},
    (found ++ rest).Pairwise (fun a b => g.isEqual a b = .ok false) →
      g.dedupFrom found rest = .ok (found ++ rest) := by
  induction rest with
  | nil => intro found _; rw [dedupFrom, List.append_nil]
  | cons id rest ih =>
    intro found h
    have hid : ∀ rep ∈ found, g.isEqual rep id = .ok false := fun rep hrep =>
      (List.pairwise_append.mp h).2.2 rep hrep id List.mem_cons_self
    rw [dedupFrom, isEqualToAny_of_differ hid, List.append_cons found id rest]
    rw [List.append_cons found id rest] at h
    exact ih h

/-! ## One node of each class -/

/-- Where representatives have been found, the nodes can be compared with each other. -/
theorem Represents.comparable {found ids : List NodeId} (h : g.Represents found ids)
    {a b : NodeId} (ha : a ∈ ids) (hb : b ∈ ids) : g.Comparable a b := by
  obtain ⟨rep, hrep, hequal⟩ := h.covers a ha
  obtain ⟨rep', hrep', hequal'⟩ := h.covers b hb
  have hapart : found.Pairwise g.Comparable := h.apart.imp comparable_of_isEqual
  have hreps : g.Comparable rep rep' := hapart.forall_of_forall (fun _ _ => .inl rfl) hrep hrep'
  exact (comparable_of_isEqual hequal).symm.trans (hreps.trans (comparable_of_isEqual hequal'))

/-- No node equals two of the nodes that were kept. -/
theorem Represents.unique (hclosed : Closed g) {found ids : List NodeId}
    (h : g.Represents found ids) {a rep rep' : NodeId} (hrep : rep ∈ found) (hrep' : rep' ∈ found)
    (hequal : g.isEqual rep a = .ok true) (hequal' : g.isEqual rep' a = .ok true) :
    rep = rep' := by
  have hequiv := isEqual_equivalence hclosed
  have : Std.Symm fun a b => g.isEqual a b = .ok false := ⟨fun _ _ => isEqual_swap hclosed⟩
  by_contra hne
  have hdiffer : g.isEqual rep rep' = .ok false := h.apart.forall hrep hrep' hne
  have hsame : g.isEqual rep rep' = .ok true := hequiv.trans hequal (hequiv.symm hequal')
  exact Bool.noConfusion (Except.ok.inj (hdiffer.symm.trans hsame))

/-- Nodes no two of which are equal are no more than the nodes that they equal. -/
theorem length_le_of_apart (hclosed : Closed g) {found found' : List NodeId}
    (hapart : found.Pairwise fun a b => g.isEqual a b = .ok false)
    (h : ∀ rep ∈ found, ∃ rep' ∈ found', g.isEqual rep' rep = .ok true) :
    found.length ≤ found'.length := by
  have hequiv := isEqual_equivalence hclosed
  choose! partner hmem hequal using h
  have hnodup : (found.map partner).Nodup := by
    refine List.pairwise_map.mpr (hapart.imp_of_mem fun {a b} ha hb hdiffer heq => ?_)
    -- nodes with the same partner are equal
    have hsame : g.isEqual a b = .ok true :=
      hequiv.trans (hequiv.symm (hequal a ha)) (heq ▸ hequal b hb)
    exact Bool.noConfusion (Except.ok.inj (hdiffer.symm.trans hsame))
  have hsub : List.Subperm (found.map partner) found' := hnodup.subperm fun rep' hrep' => by
    obtain ⟨rep, hrep, rfl⟩ := List.mem_map.mp hrep'
    exact hmem rep hrep
  simpa using hsub.length_le

/-- What is left of a list when copies are taken out. -/
structure Representatives (g : Graph) (ids found : List NodeId) : Prop where
  /-- The nodes at the positions of the list at which no node before is equal, in order. -/
  firsts : found = g.firsts ids
  /-- Every node of the list equals exactly one of them. -/
  existsUnique : ∀ id ∈ ids, ∃! rep, rep ∈ found ∧ g.isEqual rep id = .ok true
  /-- No two of them are equal. -/
  apart : found.Pairwise fun a b => g.isEqual a b = .ok false
  /-- There is nothing more to be taken out. -/
  again : g.dedup found = .ok found
  /-- Whatever the order of the list is, as many are left, one of each class. -/
  perm : ∀ other : List NodeId, other.Perm ids → ∃ found', g.dedup other = .ok found'
    ∧ found'.length = found.length
    ∧ ∀ rep ∈ found, ∃! rep', rep' ∈ found' ∧ g.isEqual rep' rep = .ok true

theorem Represents.existsUnique (hclosed : Closed g) {found ids : List NodeId}
    (h : g.Represents found ids) {id : NodeId} (hid : id ∈ ids) :
    ∃! rep, rep ∈ found ∧ g.isEqual rep id = .ok true := by
  obtain ⟨rep, hrep, hequal⟩ := h.covers id hid
  exact ⟨rep, ⟨hrep, hequal⟩, fun rep' h' => h.unique hclosed h'.1 hrep h'.2 hequal⟩

theorem Represents.subset {found ids : List NodeId} (h : g.Represents found ids) :
    ∀ rep ∈ found, rep ∈ ids :=
  fun _ hrep => mem_of_mem_firsts (h.eq_firsts ▸ hrep)

theorem dedup_eq_ok_iff (hclosed : Closed g) (ids : List NodeId) :
    (∃ found, g.dedup ids = .ok found) ↔ ∀ a ∈ ids, ∀ b ∈ ids, g.Comparable a b := by
  constructor
  · intro hrun a ha b hb
    obtain ⟨found, hrun⟩ := hrun
    exact ((represents_nil g).dedupFrom hclosed ids hrun).comparable ha hb
  · intro h
    exact dedupFrom_ends hclosed ids h

theorem Represents.representatives (hclosed : Closed g) {found ids : List NodeId}
    (h : g.Represents found ids) : g.Representatives ids found where
  firsts := h.eq_firsts
  existsUnique _ hid := h.existsUnique hclosed hid
  apart := h.apart
  again := dedupFrom_of_apart found h.apart
  perm other hperm := by
    obtain ⟨found', hrun⟩ := (dedup_eq_ok_iff hclosed other).mpr fun a ha b hb =>
      h.comparable (hperm.mem_iff.mp ha) (hperm.mem_iff.mp hb)
    have h' : g.Represents found' other := (represents_nil g).dedupFrom hclosed other hrun
    have hin : ∀ rep ∈ found, rep ∈ other := fun rep hrep => hperm.mem_iff.mpr (h.subset rep hrep)
    have hin' : ∀ rep ∈ found', rep ∈ ids := fun rep hrep => hperm.mem_iff.mp (h'.subset rep hrep)
    refine ⟨found', hrun, Nat.le_antisymm ?_ ?_, fun rep hrep => ?_⟩
    · exact length_le_of_apart hclosed h'.apart fun rep hrep => h.covers rep (hin' rep hrep)
    · exact length_le_of_apart hclosed h.apart fun rep hrep => h'.covers rep (hin rep hrep)
    · exact h'.existsUnique hclosed (hin rep hrep)

/-- **Taking copies out keeps the first node of every class.** In a context that a program comes to,
there is an answer for every list of nodes; there is none only where ids cannot be compared with
each other. What is kept are the nodes that equal no earlier node of the list. Every node of the
list equals exactly one of them, so there is one for each class, in whatever order the nodes
come. -/
theorem dedup_keeps_firsts {c : Context} (hc : Reachable c) (ids : List NodeId) :
    ((∃ found, c.graph.dedup ids = .ok found)
        ↔ ∀ a ∈ ids, ∀ b ∈ ids, a = b ∨ a ∈ c.graph ∧ b ∈ c.graph)
      ∧ ∀ found, c.graph.dedup ids = .ok found → c.graph.Representatives ids found := by
  have hclosed := closed_reachable hc
  refine ⟨dedup_eq_ok_iff hclosed ids, fun found hrun => ?_⟩
  have h : c.graph.Represents found ids := (represents_nil c.graph).dedupFrom hclosed ids hrun
  exact h.representatives hclosed

/-- Of the three records that are the same when unrolled, of their fields and of the wrappers, the
first that comes is kept. -/
theorem dedup_keeps_firsts_unrolledRecord :
    let g := (runAll unrolledRecord .fresh).graph
    Reachable (runAll unrolledRecord .fresh)
      ∧ g.dedup [⟨4⟩, ⟨0⟩, ⟨2⟩, ⟨5⟩, ⟨4⟩, ⟨7⟩, ⟨8⟩, ⟨3⟩] = .ok [⟨4⟩, ⟨2⟩, ⟨8⟩]
      ∧ g.Representatives [⟨4⟩, ⟨0⟩, ⟨2⟩, ⟨5⟩, ⟨4⟩, ⟨7⟩, ⟨8⟩, ⟨3⟩] [⟨4⟩, ⟨2⟩, ⟨8⟩]
      ∧ g.dedup [⟨3⟩, ⟨7⟩, ⟨0⟩, ⟨5⟩, ⟨4⟩, ⟨2⟩, ⟨4⟩, ⟨8⟩] = .ok [⟨3⟩, ⟨7⟩, ⟨0⟩] := by
  have hreach : Reachable (runAll unrolledRecord .fresh) := leads_runAll _ (.refl _)
  have hrun : (runAll unrolledRecord .fresh).graph.dedup
      [⟨4⟩, ⟨0⟩, ⟨2⟩, ⟨5⟩, ⟨4⟩, ⟨7⟩, ⟨8⟩, ⟨3⟩] = .ok [⟨4⟩, ⟨2⟩, ⟨8⟩] := by
    decide +kernel
  exact ⟨hreach, hrun, (dedup_keeps_firsts hreach _).2 _ hrun, by decide +kernel⟩

end SyntaxGraph.Graph
