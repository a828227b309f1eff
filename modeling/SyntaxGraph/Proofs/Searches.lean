import SyntaxGraph.Proofs.Forwarding
import SyntaxGraph.Proofs.Preorder

/-!
# The first hit and all hits

A search for the first hit does not break off. Its walk goes on to the siblings of
the hit, and of every node that the hit is below, and only finds at each of them
that there is nothing left to ask. So what was found once stays as it is, and the
predicate, which may have a state of its own, is not asked again: whether it would
have answered something else by then makes no difference.

Up to the hit the search does what a collection of all hits does. To say which
questions were asked, the predicate is made to write them down. That does not
change its answers, so what holds of the search that writes holds of every search.
-/

namespace SyntaxGraph.Graph

variable {g : Graph} {σ : Type}

theorem inspect_eq (p : Search σ) (id : NodeId) (node : Node) (f : Findings σ) :
    inspect p id node f = ⟨if (p node.kind f.state).1 then id :: f.found else f.found,
      (p node.kind f.state).2⟩ := by
  rw [inspect]
  split
  next hp => rw [hp, if_pos rfl]
  next hp => rw [hp, if_neg Bool.false_ne_true]

/-! ## The search for the first hit -/

/-- Asks about a node as long as nothing is found. -/
def seek (p : Search σ) (id : NodeId) (node : Node) (f : Findings σ) : Findings σ :=
  if f.found.isEmpty then inspect p id node f else f

/-- The visitor of the search: it goes below every node as long as nothing is found. -/
def seeking (p : Search σ) : Visitor (Findings σ) := fun id node f =>
  if f.found.isEmpty then (true, inspect p id node f) else (false, f)

theorem stepAt_seek_of_empty (p : Search σ) {f : Findings σ} (hf : f.found = []) (id : NodeId) :
    g.stepAt (seek p) f id = g.stepAt (inspect p) f id := by
  simp only [stepAt, seek, hf, List.isEmpty_nil, if_true]

/-- **Once something is found, nothing happens any more.** -/
theorem foldl_seek_of_found (p : Search σ) {f : Findings σ} (hf : f.found ≠ [])
    (ids : List NodeId) : ids.foldl (g.stepAt (seek p)) f = f := by
  have hempty : ¬ f.found.isEmpty = true := by simpa using hf
  induction ids with
  | nil => rfl
  | cons id rest ih =>
    have hstep : g.stepAt (seek p) f id = f := by
      cases hn : g.node? id <;> simp only [stepAt, hn, seek, if_neg hempty]
    rw [List.foldl_cons, hstep, ih]

theorem OwnInv.follows_seeking (h : OwnInv g) (p : Search σ) :
    g.Follows (seeking p) fun id f => (g.preorder id).foldl (g.stepAt (seek p)) f := by
  intro id node hn f
  by_cases hempty : f.found.isEmpty = true
  · have hstep : g.stepAt (seek p) f id = inspect p id node f := by
      rw [stepAt_seek_of_empty p (List.isEmpty_iff.mp hempty), stepAt, hn]
    have hvisit : seeking p id node f = (true, inspect p id node f) := if_pos hempty
    rw [hvisit, if_pos rfl, ← hstep]
    exact h.foldl_preorder _ (mem_iff_node?.mpr ⟨node, hn⟩) f
  · have hvisit : seeking p id node f = (false, f) := if_neg hempty
    rw [hvisit, if_neg Bool.false_ne_true]
    exact foldl_seek_of_found p (by simpa using hempty) _

theorem OwnInv.findFirst_eq_foldl (h : OwnInv g) {root : NodeId} (hroot : root ∈ g) (p : Search σ)
    (state : σ) :
    g.findFirst root p state =
      .ok (((g.preorder root).foldl (g.stepAt (seek p)) ⟨[], state⟩).found.getLast?,
        ((g.preorder root).foldl (g.stepAt (seek p)) ⟨[], state⟩).state) := by
  have hvisit := h.visit_eq_ok (h.follows_seeking p) hroot ⟨[], state⟩
  unfold seeking at hvisit
  rw [findFirst, hvisit]
  rfl

/-! ## Up to the first hit -/

theorem found_stepAt_inspect (p : Search σ) (f : Findings σ) (id : NodeId) :
    (g.stepAt (inspect p) f id).found = f.found
      ∨ (g.stepAt (inspect p) f id).found = id :: f.found := by
  cases hn : g.node? id with
  | none => exact .inl (by rw [stepAt, hn])
  | some node =>
    rw [stepAt, hn]
    dsimp only
    rw [inspect_eq]
    by_cases hp : (p node.kind f.state).1 = true
    · exact .inr (if_pos hp)
    · exact .inl (if_neg hp)

/-- What is found is put in front of what was found before. -/
theorem foldl_inspect_found (p : Search σ) (ids : List NodeId) : ∀ f : Findings σ,
    f.found <:+ (ids.foldl (g.stepAt (inspect p)) f).found := by
  induction ids with
  | nil => exact fun f => List.suffix_refl _
  | cons id rest ih =>
    intro f
    refine List.IsSuffix.trans ?_ (ih (g.stepAt (inspect p) f id))
    rcases found_stepAt_inspect (g := g) p f id with hmiss | hhit
    · exact hmiss ▸ List.suffix_refl f.found
    · exact hhit ▸ List.suffix_cons id f.found

/-- The list falls into what is asked about and the rest. If there is no hit, there is no rest. A
hit is the last one that is asked about. -/
structure Cut (ids asked rest : List NodeId) (first : Option NodeId) : Prop where
  parts : ids = asked ++ rest
  vain : first = none → rest = []
  hit : ∀ id, first = some id → asked.getLast? = some id

/-- **A search for the first hit is a collection of all hits that does not go as far.** -/
theorem foldl_seek (p : Search σ) (ids : List NodeId) : ∀ {f : Findings σ}, f.found = [] →
    ∃ asked rest first,
      ids.foldl (g.stepAt (seek p)) f = asked.foldl (g.stepAt (inspect p)) f
        ∧ (asked.foldl (g.stepAt (inspect p)) f).found = first.toList
        ∧ Cut ids asked rest first := by
  induction ids with
  | nil => exact fun hf => ⟨[], [], none, rfl, hf, rfl, fun _ => rfl, fun _ h => by simp at h⟩
  | cons id rest ih =>
    intro f hf
    have hstep := stepAt_seek_of_empty (g := g) p hf id
    rcases found_stepAt_inspect (g := g) p f id with hmiss | hhit
    · obtain ⟨asked, rest', first, hsame, hfound, hcut⟩ := ih (hmiss.trans hf)
      refine ⟨id :: asked, rest', first, ?_, hfound, ?_, hcut.vain, fun last hlast => ?_⟩
      · rw [List.foldl_cons, List.foldl_cons, hstep, hsame]
      · rw [hcut.parts, List.cons_append]
      · rw [List.getLast?_cons, hcut.hit last hlast]
        rfl
    · -- the rest of the list is gone through in vain
      rw [hf] at hhit
      refine ⟨[id], rest, some id, ?_, hhit, rfl, fun hnone => by simp at hnone, fun _ h => h⟩
      rw [List.foldl_cons, hstep, foldl_seek_of_found p (by rw [hhit]; simp)]
      rfl

/-! ## A predicate that writes down what it is asked -/

/-- The predicate, which now writes down each kind that it is asked about. -/
def recording (p : Search σ) : Search (σ × List (Kind Name)) := fun kind s =>
  ((p kind s.1).1, (p kind s.1).2, s.2 ++ [kind])

/-- The findings without what was written down. -/
def Findings.unrecorded (f : Findings (σ × List (Kind Name))) : Findings σ := ⟨f.found, f.state.1⟩

/-- The kinds of the nodes, one for each. -/
def AreKinds (g : Graph) (ids : List NodeId) (kinds : List (Kind Name)) : Prop :=
  ids.map g.kind? = kinds.map some

theorem inspect_unrecorded (p : Search σ) (id : NodeId) (node : Node)
    (f : Findings (σ × List (Kind Name))) :
    inspect p id node f.unrecorded = (inspect (recording p) id node f).unrecorded := by
  rw [inspect_eq, inspect_eq]
  rfl

theorem seek_unrecorded (p : Search σ) (id : NodeId) (node : Node)
    (f : Findings (σ × List (Kind Name))) :
    seek p id node f.unrecorded = (seek (recording p) id node f).unrecorded := by
  unfold seek
  rw [inspect_unrecorded, apply_ite Findings.unrecorded]
  rfl

theorem foldl_unrecorded {step : NodeId → Node → Findings σ → Findings σ}
    {step' : NodeId → Node → Findings (σ × List (Kind Name)) → Findings (σ × List (Kind Name))}
    (hstep : ∀ id node f, step id node f.unrecorded = (step' id node f).unrecorded)
    (ids : List NodeId) (f : Findings (σ × List (Kind Name))) :
    ids.foldl (g.stepAt step) f.unrecorded = (ids.foldl (g.stepAt step') f).unrecorded := by
  refine List.foldl_hom Findings.unrecorded fun f id => ?_
  cases hn : g.node? id with
  | none => simp only [stepAt, hn]
  | some node => simp only [stepAt, hn, hstep]

/-- What a collection finds does not depend on what is written down. -/
theorem OwnInv.collect_unrecorded (h : OwnInv g) {root : NodeId} (hroot : root ∈ g) (p : Search σ)
    (s : σ × List (Kind Name)) {found : List NodeId} {s' : σ × List (Kind Name)}
    (hrun : g.collect root (recording p) s = .ok (found, s')) :
    g.collect root p s.1 = .ok (found, s'.1) := by
  rw [h.collect_eq_foldl hroot] at hrun ⊢
  obtain ⟨rfl, rfl⟩ := Prod.mk.inj (Except.ok.inj hrun)
  have hplain := foldl_unrecorded (g := g) (inspect_unrecorded p) (g.preorder root) ⟨[], s⟩
  exact congrArg (fun f : Findings σ => Except.ok (f.found.reverse, f.state)) hplain

theorem OwnInv.findFirst_unrecorded (h : OwnInv g) {root : NodeId} (hroot : root ∈ g)
    (p : Search σ) (s : σ × List (Kind Name)) {first : Option NodeId} {s' : σ × List (Kind Name)}
    (hrun : g.findFirst root (recording p) s = .ok (first, s')) :
    g.findFirst root p s.1 = .ok (first, s'.1) := by
  rw [h.findFirst_eq_foldl hroot] at hrun ⊢
  obtain ⟨rfl, rfl⟩ := Prod.mk.inj (Except.ok.inj hrun)
  have hplain := foldl_unrecorded (g := g) (seek_unrecorded p) (g.preorder root) ⟨[], s⟩
  exact congrArg (fun f : Findings σ => Except.ok (f.found.getLast?, f.state)) hplain

/-- A collection asks about every node on its way, one after the other. -/
theorem foldl_inspect_recording (p : Search σ) (ids : List NodeId) :
    ∀ f : Findings (σ × List (Kind Name)), (∀ id ∈ ids, id ∈ g) →
      ∃ kinds, g.AreKinds ids kinds
        ∧ (ids.foldl (g.stepAt (inspect (recording p))) f).state.2 = f.state.2 ++ kinds := by
  induction ids with
  | nil => exact fun f _ => ⟨[], rfl, (List.append_nil _).symm⟩
  | cons id rest ih =>
    intro f hall
    obtain ⟨hid, hrest⟩ := List.forall_mem_cons.mp hall
    obtain ⟨node, hn⟩ := mem_iff_node?.mp hid
    obtain ⟨kinds, hkinds, hlog⟩ := ih (inspect (recording p) id node f) hrest
    have hasked : (inspect (recording p) id node f).state.2 = f.state.2 ++ [node.kind] := by
      rw [inspect_eq]
      rfl
    refine ⟨node.kind :: kinds, ?_, ?_⟩
    · exact congrArg₂ List.cons (kind?_of_node? hn) hkinds
    · rw [List.foldl_cons, stepAt, hn, hlog, hasked, List.append_assoc, List.singleton_append]

/-! ## The search and the collection -/

/-- What the search for the first hit has in common with the collection of all hits. -/
structure StopsEarly (g : Graph) (root : NodeId) (p : Search σ) (state : σ) (found : List NodeId)
    (last early : σ) : Prop where
  collect : g.collect root p state = .ok (found, last)
  /-- The search finds the first one that the collection finds, if there is one. -/
  findFirst : g.findFirst root p state = .ok (found.head?, early)
  /-- There is a hit if and only if the collection finds something. -/
  hasAny : g.hasAny root p state = .ok (!found.isEmpty, early)
  /-- The collection asks about every node of the tree, in order. -/
  collect_asks : ∃ kinds, g.AreKinds (g.preorder root) kinds
    ∧ g.collect root (recording p) (state, []) = .ok (found, last, kinds)
  /-- The search asks about the nodes up to the first hit, in order, and about no other. -/
  findFirst_asks : ∃ asked rest kinds, Cut (g.preorder root) asked rest found.head?
    ∧ g.AreKinds asked kinds
    ∧ g.findFirst root (recording p) (state, []) = .ok (found.head?, early, kinds)

theorem OwnInv.stopsEarly (h : OwnInv g) {root : NodeId} (hroot : root ∈ g) (p : Search σ)
    (state : σ) : ∃ found last early, g.StopsEarly root p state found last early := by
  have hall : ∀ id ∈ g.preorder root, id ∈ g := fun _ hid => h.mem_of_mem_preorder hroot hid
  let start : Findings (σ × List (Kind Name)) := ⟨[], state, []⟩
  let all := (g.preorder root).foldl (g.stepAt (inspect (recording p))) start
  obtain ⟨asked, rest, first, hsame, hfound, hcut⟩ :=
    foldl_seek (g := g) (recording p) (g.preorder root) (f := start) rfl
  let part := asked.foldl (g.stepAt (inspect (recording p))) start
  -- the collection finds this hit first, and notes it last on its list
  have hfirst : all.found.reverse.head? = first := by
    have hparts : all = rest.foldl (g.stepAt (inspect (recording p))) part := by
      rw [← List.foldl_append, ← hcut.parts]
    obtain ⟨more, hmore⟩ := foldl_inspect_found (g := g) (recording p) rest part
    rw [hparts, ← hmore, hfound]
    cases hf : first with
    | none =>
      have hnone : rest = [] := hcut.vain hf
      rw [hnone, List.foldl_nil, hfound, hf] at hmore
      simpa using hmore
    | some id => simp
  obtain ⟨kinds, hkinds, hlog⟩ := foldl_inspect_recording p (g.preorder root) start hall
  obtain ⟨kinds', hkinds', hlog'⟩ := foldl_inspect_recording p asked start fun id hid =>
    hall id (hcut.parts ▸ List.mem_append_left rest hid)
  have hcollect : g.collect root (recording p) (state, []) =
      .ok (all.found.reverse, all.state.1, kinds) := by
    rw [h.collect_eq_foldl hroot]
    exact congrArg (fun log => Except.ok (all.found.reverse, all.state.1, log)) hlog
  have hfind : g.findFirst root (recording p) (state, []) =
      .ok (all.found.reverse.head?, part.state.1, kinds') := by
    rw [h.findFirst_eq_foldl hroot, hsame, hfirst, hfound]
    refine congrArg Except.ok (Prod.ext ?_ (congrArg (part.state.1, ·) hlog'))
    cases first <;> rfl
  have hfind' := h.findFirst_unrecorded hroot p _ hfind
  refine ⟨_, _, _, h.collect_unrecorded hroot p _ hcollect, hfind', ?_, ⟨kinds, hkinds, hcollect⟩,
    ⟨asked, rest, kinds', hfirst ▸ hcut, hkinds', hfind⟩⟩
  rw [hasAny, hfind']
  exact congrArg (fun some => Except.ok (some, part.state.1)) (by cases all.found.reverse <;> rfl)

/-- **A search for the first hit is a collection that stops.** In a context that a program comes to,
take any root and any predicate, which may have a state that its calls pass on. The search finds the
first one of what the collection finds that starts from the same state, and nothing if that finds
nothing. The collection asks about the nodes of the tree in order, each of them once; the search
asks about those up to the first hit, each of them once, and about none after it. -/
theorem search_stops_early {c : Context} (hc : Reachable c) {root : NodeId} (hroot : root ∈ c.graph)
    (p : Search σ) (state : σ) :
    (∃ found last early, c.graph.StopsEarly root p state found last early)
      ∧ (c.graph.preorder root).Nodup
      ∧ ∀ id, id ∈ c.graph.preorder root ↔ c.graph.Above root id := by
  have h := ownInv_reachable hc
  exact ⟨h.stopsEarly hroot p state, h.nodup_preorder hroot, fun id => h.mem_preorder hroot⟩

/-- Says yes every third time that it is asked. -/
def everyThird : Search Nat := fun _ asked => (asked % 3 == 2, asked + 1)

/-- The third node of the tree is the left side of the assignment. The collection finds two more, of
which one is below it and the other on the right side; the search asks three times. -/
theorem search_stops_early_crossroads :
    let c := runAll crossroads .fresh
    Reachable c ∧ ⟨12⟩ ∈ c.graph
      ∧ c.graph.StopsEarly ⟨12⟩ everyThird 0 [⟨9⟩, ⟨3⟩, ⟨7⟩] 10 3
      ∧ c.graph.findFirst ⟨12⟩ (recording everyThird) (0, []) =
        .ok (some ⟨9⟩, 3, [.expression .ternary, .expression .assign, .expression .literal]) := by
  have hc : Reachable (runAll crossroads .fresh) := leads_runAll crossroads (.refl _)
  have hroot : ⟨12⟩ ∈ (runAll crossroads .fresh).graph := by decide +kernel
  obtain ⟨⟨found, last, early, hstops⟩, -⟩ := search_stops_early hc hroot everyThird 0
  have hcollect : (runAll crossroads .fresh).graph.collect ⟨12⟩ everyThird 0 =
      .ok ([⟨9⟩, ⟨3⟩, ⟨7⟩], 10) := by decide +kernel
  have hfind : (runAll crossroads .fresh).graph.findFirst ⟨12⟩ everyThird 0 =
      .ok (some ⟨9⟩, 3) := by decide +kernel
  obtain ⟨rfl, rfl⟩ := Prod.mk.inj (Except.ok.inj (hstops.collect.symm.trans hcollect))
  obtain ⟨-, rfl⟩ := Prod.mk.inj (Except.ok.inj (hstops.findFirst.symm.trans hfind))
  exact ⟨hc, hroot, hstops, by decide +kernel⟩

end SyntaxGraph.Graph
