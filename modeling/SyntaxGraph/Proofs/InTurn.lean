import SyntaxGraph.Proofs.Bisimulation
import SyntaxGraph.Proofs.Monotone

/-!
# Several questions with one state

The walk that resolves a node and the comparison of two nodes carry a state
along, and a client may ask several questions in turn with the same one. The two
states fare differently.

The set of entered nodes only grows. While a walk is under way it holds nodes
about which nothing is known yet, but once a walk has come to its end without
meeting a placeholder, all that the set holds is settled: there is no placeholder
in it, and nothing is left to enter where its nodes lead to. A later walk may
leave out what is settled. So every answer is right up to the first "no". The
walk that answers "no" breaks off and leaves nodes behind that are not resolved,
and after that the set is worth nothing.

The list of assumed pairs is taken back, pair by pair, whatever the answer is. A
comparison leaves no trace in it, and so there is nothing that a later one could
be misled by.
-/

namespace SyntaxGraph.Graph

variable {g : Graph}

/-! ## Sets that are settled -/

/-- No node of the set is a placeholder, and there is nothing to enter where its nodes lead to. -/
structure Settled (g : Graph) (seen : NodeSet) : Prop where
  clean : ∀ a ∈ seen, g.isPlaceholder a = false
  closed : ∀ a ∈ seen, ∀ b ∈ g.onward a, g.Passed seen b

theorem settled_empty (g : Graph) : g.Settled .empty :=
  ⟨fun a ha => absurd ha (NodeSet.not_mem_empty a), fun a ha => absurd ha (NodeSet.not_mem_empty a)⟩

/-- A walk that meets no placeholder leaves a settled set settled. -/
theorem Settled.visits {seen : NodeSet} (h : g.Settled seen) {pending : List NodeId}
    (hclean : ∀ v ∈ g.visits pending seen, g.isPlaceholder v = false) :
    g.Settled (seen.insertAll (g.visits pending seen)) := by
  refine ⟨fun a ha => ?_, fun a ha b hb => ?_⟩
  · rcases (NodeSet.mem_insertAll _).mp ha with ha | ha
    · exact h.clean a ha
    · exact hclean a ha
  · rcases (NodeSet.mem_insertAll _).mp ha with ha | ha
    · exact (h.closed a ha b hb).mono fun c hc => (NodeSet.mem_insertAll _).mpr (.inl hc)
    · exact (passed_visits pending seen).2 a ha b hb

/-- What can be reached from where there is nothing left to enter has been entered. -/
theorem Settled.mem_of_reaches {seen : NodeSet} (h : g.Settled seen) (hclosed : Closed g)
    {a b : NodeId} (hpath : g.Reaches a b) : a ∈ g → g.Passed seen a → b ∈ seen := by
  induction hpath with
  | here hself => exact fun ha hpassed => hpassed.mem ha hself
  | step hself _ hlink _ ih =>
    intro ha hpassed
    have hnext := mem_onward_iff.mpr ⟨h.clean _ (hpassed.mem ha hself), hlink⟩
    exact ih (onward_mem hclosed hnext) (h.closed _ (hpassed.mem ha hself) _ hnext)

/-- The nodes entered are those that the walk would have entered, if it came to its end. -/
theorem settle_true (hclosed : Closed g) (pending : List NodeId) (seen : NodeSet) :
    ∀ {seen'}, (∀ id ∈ pending, id ∈ g) → g.settle pending seen = .ok (true, seen') →
      seen' = seen.insertAll (g.visits pending seen) := by
  induction pending, seen using visits.induct g with
  | case1 seen =>
    intro seen' _ h
    rw [settle] at h
    rw [visits_nil]
    exact (Prod.mk.inj (Except.ok.inj h)).2.symm
  | case2 seen id rest hpassed ih =>
    intro seen' hpending h
    obtain ⟨hid, hrest⟩ := List.forall_mem_cons.mp hpending
    rw [settle_cons_passed hid hpassed] at h
    rw [visits_cons_passed hpassed]
    exact ih hrest h
  | case3 seen id rest hnew ih =>
    intro seen' hpending h
    obtain ⟨_, hrest⟩ := List.forall_mem_cons.mp hpending
    rw [settle_cons hnew] at h
    rw [visits_cons hnew]
    cases hp : g.isPlaceholder id with
    | true => simp [hp] at h
    | false =>
      rw [hp, if_neg (by simp)] at h
      exact ih (List.forall_mem_append.mpr ⟨fun next hn => onward_mem hclosed hn, hrest⟩) h

/-- **A settled set does not mislead.** A question that starts with it has the answer of a fresh
one. If the answer is "yes" the set is settled afterwards, and what is new in it is what can be
reached from the node. -/
theorem Settled.isResolvedFrom {seen : NodeSet} (h : g.Settled seen) (hclosed : Closed g)
    {id : NodeId} (hid : id ∈ g) :
    ∃ answer seen', g.isResolvedFrom id seen = .ok (answer, seen')
      ∧ g.isResolved id = .ok answer
      ∧ (answer = true → g.Settled seen' ∧ ∀ a, a ∈ seen' ↔ a ∈ seen ∨ g.Reaches id a) := by
  have hpending : ∀ a ∈ [id], a ∈ g := by simpa using hid
  have hpassed := (passed_visits (g := g) [id] seen).1 id List.mem_cons_self
  obtain ⟨answer, seen', hwalk, hclean⟩ := settle_eq_ok hclosed [id] seen hpending
  obtain ⟨fresh, hfresh, hresolved⟩ := isResolved_eq_ok hclosed hid
  have hreaches : ∀ v ∈ g.visits [id] seen, g.Reaches id v := by
    intro v hv
    obtain ⟨a, ha, hpath⟩ := reachesFirst_of_mem_visits [id] seen v hv
    exact List.mem_singleton.mp ha ▸ reaches_of_reachesFirst hpath
  -- the walk leaves out what is settled, and there is no placeholder to be found from there on
  have hsame : answer = fresh := by
    rw [Bool.eq_iff_iff, hclean, hresolved]
    constructor
    · intro hall hreach
      obtain ⟨p, hpath, hp⟩ := hreach
      have hsettled := h.visits hall
      rw [hsettled.clean p (hsettled.mem_of_reaches hclosed hpath hid hpassed)] at hp
      exact Bool.noConfusion hp
    · intro hr v hv
      cases hp : g.isPlaceholder v with
      | false => rfl
      | true => exact absurd ⟨v, hreaches v hv, hp⟩ hr
  refine ⟨answer, seen', hwalk, hsame ▸ hfresh, fun hyes => ?_⟩
  subst hyes
  obtain rfl := settle_true hclosed [id] seen hpending hwalk
  have hsettled := h.visits (hclean.mp rfl)
  refine ⟨hsettled, fun a => ⟨fun ha => ?_, fun ha => ?_⟩⟩
  · exact ((NodeSet.mem_insertAll _).mp ha).imp_right (hreaches a)
  · rcases ha with ha | ha
    · exact (NodeSet.mem_insertAll _).mpr (.inl ha)
    · exact hsettled.mem_of_reaches hclosed ha hid hpassed

/-! ## Resolving several nodes -/

/-- The questions whether the nodes are resolved, asked in turn with one set of entered nodes. Each
answer comes with the set as it is after it. -/
def resolvedInTurn (g : Graph) : List NodeId → NodeSet → Except Fault (List (Bool × NodeSet))
  | [], _ => .ok []
  | id :: rest, seen => do
    let (answer, seen) ← g.isResolvedFrom id seen
    let later ← g.resolvedInTurn rest seen
    return (answer, seen) :: later

theorem resolvedInTurn_cons {id : NodeId} {rest : List NodeId} {seen seen' : NodeSet}
    {answer : Bool} {later : List (Bool × NodeSet)}
    (hfirst : g.isResolvedFrom id seen = .ok (answer, seen'))
    (hlater : g.resolvedInTurn rest seen' = .ok later) :
    g.resolvedInTurn (id :: rest) seen = .ok ((answer, seen') :: later) := by
  simp only [resolvedInTurn, hfirst, bind, Except.bind, hlater]
  rfl

/-- Whatever the set holds, every question has an answer. -/
theorem resolvedInTurn_ends (hclosed : Closed g) (ids : List NodeId) :
    ∀ seen : NodeSet, (∀ id ∈ ids, id ∈ g) →
      ∃ replies, g.resolvedInTurn ids seen = .ok replies ∧ replies.length = ids.length := by
  induction ids with
  | nil => exact fun _ _ => ⟨[], rfl, rfl⟩
  | cons id rest ih =>
    intro seen hids
    obtain ⟨hid, hrest⟩ := List.forall_mem_cons.mp hids
    obtain ⟨answer, seen', hfirst, _⟩ := settle_eq_ok hclosed [id] seen (by simpa using hid)
    obtain ⟨later, hlater, hlength⟩ := ih seen' hrest
    exact ⟨_, resolvedInTurn_cons hfirst hlater, congrArg (· + 1) hlength⟩

/-- What the replies to questions in turn are worth, up to the first "no". -/
structure SoundInTurn (g : Graph) (seen : NodeSet) (ids : List NodeId)
    (replies : List (Bool × NodeSet)) : Prop where
  /-- Every question has its reply. -/
  length_eq : replies.length = ids.length
  /-- As long as all answers were "yes", the next one is that of a fresh question. -/
  answer_eq : ∀ index id reply, ids[index]? = some id → replies[index]? = some reply →
    (∀ earlier ∈ replies.take index, earlier.1 = true) → g.isResolved id = .ok reply.1
  /-- And the set has come to hold what can be reached from the nodes asked about so far. -/
  mem_iff : ∀ index reply, replies[index]? = some reply →
    (∀ earlier ∈ replies.take (index + 1), earlier.1 = true) →
    ∀ a, a ∈ reply.2 ↔ a ∈ seen ∨ ∃ id ∈ ids.take (index + 1), g.Reaches id a
  /-- So all answers are "yes" exactly if all nodes are resolved. -/
  all_iff : (∀ reply ∈ replies, reply.1 = true) ↔ ∀ id ∈ ids, g.isResolved id = .ok true

/-- After a "no", nothing is said about the replies. -/
theorem soundInTurn_no {seen seen' : NodeSet} {id : NodeId} {rest : List NodeId}
    {later : List (Bool × NodeSet)} (hno : g.isResolved id = .ok false)
    (hlength : later.length = rest.length) :
    g.SoundInTurn seen (id :: rest) ((false, seen') :: later) where
  length_eq := congrArg (· + 1) hlength
  answer_eq index asked reply hid hreply hearlier := by
    cases index with
    | zero =>
      obtain rfl := Option.some.inj hid
      obtain rfl := Option.some.inj hreply
      exact hno
    | succ index => exact Bool.noConfusion (hearlier (false, seen') List.mem_cons_self)
  mem_iff index reply _ hearlier :=
    Bool.noConfusion (hearlier (false, seen') List.mem_cons_self)
  all_iff := by
    refine ⟨fun hall => Bool.noConfusion (hall (false, seen') List.mem_cons_self), fun hall => ?_⟩
    have hyes := hall id List.mem_cons_self
    rw [hno] at hyes
    exact Bool.noConfusion (Except.ok.inj hyes)

/-- After a "yes", the replies are worth what they would be if one started with the set that it
leaves behind. -/
theorem soundInTurn_yes {seen seen' : NodeSet} {id : NodeId} {rest : List NodeId}
    {later : List (Bool × NodeSet)} (hyes : g.isResolved id = .ok true)
    (hmem : ∀ a, a ∈ seen' ↔ a ∈ seen ∨ g.Reaches id a)
    (hlater : g.SoundInTurn seen' rest later) :
    g.SoundInTurn seen (id :: rest) ((true, seen') :: later) where
  length_eq := congrArg (· + 1) hlater.length_eq
  answer_eq index asked reply hid hreply hearlier := by
    cases index with
    | zero =>
      obtain rfl := Option.some.inj hid
      obtain rfl := Option.some.inj hreply
      exact hyes
    | succ index =>
      exact hlater.answer_eq index asked reply hid hreply (List.forall_mem_cons.mp hearlier).2
  mem_iff index reply hreply hearlier a := by
    cases index with
    | zero =>
      obtain rfl := Option.some.inj hreply
      simp [hmem]
    | succ index =>
      rw [hlater.mem_iff index reply hreply (List.forall_mem_cons.mp hearlier).2 a, hmem, or_assoc,
        List.take_succ_cons, List.exists_mem_cons_iff]
  all_iff := by
    rw [List.forall_mem_cons, List.forall_mem_cons, hlater.all_iff]
    exact and_congr_left fun _ => ⟨fun _ => hyes, fun _ => rfl⟩

/-- **Questions in turn are answered soundly** if the set that they start with is settled. -/
theorem Settled.resolvedInTurn (hclosed : Closed g) (ids : List NodeId) :
    ∀ {seen : NodeSet}, g.Settled seen → (∀ id ∈ ids, id ∈ g) →
      ∃ replies, g.resolvedInTurn ids seen = .ok replies ∧ g.SoundInTurn seen ids replies := by
  induction ids with
  | nil => exact fun _ _ => ⟨[], rfl, rfl, by simp, by simp, by simp⟩
  | cons id rest ih =>
    intro seen h hids
    obtain ⟨hid, hrest⟩ := List.forall_mem_cons.mp hids
    obtain ⟨answer, seen', hfirst, hfresh, hyes⟩ := h.isResolvedFrom hclosed hid
    cases answer with
    | false =>
      obtain ⟨later, hlater, hlength⟩ := resolvedInTurn_ends hclosed rest seen' hrest
      exact ⟨_, resolvedInTurn_cons hfirst hlater, soundInTurn_no hfresh hlength⟩
    | true =>
      obtain ⟨hsettled, hmem⟩ := hyes rfl
      obtain ⟨later, hlater, hsound⟩ := ih hsettled hrest
      exact ⟨_, resolvedInTurn_cons hfirst hlater, soundInTurn_yes hfresh hmem hsound⟩

/-- **One set of entered nodes serves several questions, up to the first "no".** In a context that a
program comes to, nodes are asked about in turn, beginning with the empty set. Every answer up to
and including the first "no" is that of a fresh question, so all are "yes" exactly if all nodes are
resolved. As long as all were "yes", the set consists of what can be reached from the nodes asked
about, where no way leads to or through a self reference. -/
theorem resolution_in_turn {c : Context} (hc : Reachable c) (ids : List NodeId)
    (hids : ∀ id ∈ ids, id ∈ c.graph) :
    ∃ replies, c.graph.resolvedInTurn ids .empty = .ok replies
      ∧ c.graph.SoundInTurn .empty ids replies :=
  (settled_empty c.graph).resolvedInTurn (closed_reachable hc) ids hids

/-- The sample record, and another one with a field of a type that is only named. A grouping holds a
reference of the other record to itself. -/
def finishedAndUnfinished : List Command := linkedRecord ++ [
  .make (.begin (.type .struct)) .dummy,
  .make (.build (.selfReference ⟨4⟩)) .dummy,
  .make (.build (.node (.expression .grouping) [.owned ⟨6⟩])) .dummy,
  .make (.build (.node (.type (.name (.text "T"))) [])) .dummy,
  .make (.build (.node (.qualifiedType .none) [.owned ⟨8⟩])) .dummy,
  .make (.build (.node (.declaration (.field (.text "last"))) [.owned ⟨9⟩])) .dummy,
  .push ⟨4⟩ (.owned ⟨10⟩)]

/-- The field of the sample record, the grouping and the wrapper that was replaced are resolved, and
the other record is not. The named type, which is asked about last, was entered on the way to that
"no" and is taken for resolved. -/
theorem resolution_in_turn_finishedAndUnfinished :
    let g := (runAll finishedAndUnfinished .fresh).graph
    Reachable (runAll finishedAndUnfinished .fresh)
      ∧ (∀ id ∈ [⟨2⟩, ⟨7⟩, ⟨1⟩, ⟨4⟩, ⟨8⟩], id ∈ g)
      ∧ (∃ replies, g.resolvedInTurn [⟨2⟩, ⟨7⟩, ⟨1⟩, ⟨4⟩, ⟨8⟩] .empty = .ok replies
        ∧ replies.map Prod.fst = [true, true, true, false, true]
        ∧ g.SoundInTurn .empty [⟨2⟩, ⟨7⟩, ⟨1⟩, ⟨4⟩, ⟨8⟩] replies)
      ∧ g.isResolved ⟨8⟩ = .ok false := by
  have hreach : Reachable (runAll finishedAndUnfinished .fresh) := leads_runAll _ (.refl _)
  have hids : ∀ id ∈ [⟨2⟩, ⟨7⟩, ⟨1⟩, ⟨4⟩, ⟨8⟩],
      id ∈ (runAll finishedAndUnfinished .fresh).graph := by
    decide +kernel
  obtain ⟨replies, hreplies, hsound⟩ := resolution_in_turn hreach _ hids
  have hanswers : ((runAll finishedAndUnfinished .fresh).graph.resolvedInTurn
      [⟨2⟩, ⟨7⟩, ⟨1⟩, ⟨4⟩, ⟨8⟩] .empty).map (List.map Prod.fst) =
        .ok [true, true, true, false, true] := by
    decide +kernel
  rw [hreplies] at hanswers
  exact ⟨hreach, hids, ⟨replies, hreplies, Except.ok.inj hanswers, hsound⟩, by decide +kernel⟩

/-! ## Comparing several pairs -/

/-- The questions whether the pairs are equal, asked in turn with one list of assumed pairs. The
answers come with the list as it is after the last of them. -/
def equalInTurn (g : Graph) :
    List (NodeId × NodeId) → List NodePair → Except Fault (List Bool × List NodePair)
  | [], assumed => .ok ([], assumed)
  | (a, b) :: rest, assumed => do
    let (answer, assumed) ← g.isEqualFrom a b assumed
    let (answers, assumed) ← g.equalInTurn rest assumed
    return (answer :: answers, assumed)

/-- **Every question of a row is asked under the assumptions of the first.** -/
theorem equalInTurn_eq_ok (hclosed : Closed g) (assumed : List NodePair)
    (pairs : List (NodeId × NodeId)) : (∀ p ∈ pairs, g.Comparable p.1 p.2) →
      ∃ answers, g.equalInTurn pairs assumed = .ok (answers, assumed)
        ∧ List.Forall₂ (fun p answer => g.isEqualFrom p.1 p.2 assumed = .ok (answer, assumed))
          pairs answers := by
  induction pairs with
  | nil => exact fun _ => ⟨[], rfl, .nil⟩
  | cons p rest ih =>
    intro hpairs
    obtain ⟨hp, hrest⟩ := List.forall_mem_cons.mp hpairs
    obtain ⟨answer, hfirst⟩ := hp.isEqualFrom hclosed assumed
    obtain ⟨answers, hlater, hall⟩ := ih hrest
    refine ⟨answer :: answers, ?_, .cons hfirst hall⟩
    simp only [equalInTurn, hfirst, bind, Except.bind, hlater]
    rfl

/-- **Comparisons leave no trace.** In a context that a program comes to, two nodes can be compared
whatever pairs are assumed, and the comparison leaves the list as it found it: whether the answer is
"yes" or "no", and wherever a difference is met. So of several questions asked in turn, beginning
with the empty list, each has the answer of a fresh one, whichever of its two nodes comes first. -/
theorem comparisons_in_turn {c : Context} (hc : Reachable c) :
    (∀ a b assumed answer assumed', c.graph.isEqualFrom a b assumed = .ok (answer, assumed') →
        assumed' = assumed)
      ∧ (∀ a b assumed, (∃ answer, c.graph.isEqualFrom a b assumed = .ok (answer, assumed))
        ↔ a = b ∨ a ∈ c.graph ∧ b ∈ c.graph)
      ∧ ∀ pairs : List (NodeId × NodeId), (∀ p ∈ pairs, c.graph.Comparable p.1 p.2) →
        ∃ answers, c.graph.equalInTurn pairs [] = .ok (answers, [])
          ∧ List.Forall₂ (fun p answer => c.graph.isEqual p.1 p.2 = .ok answer
            ∧ c.graph.isEqual p.2 p.1 = .ok answer) pairs answers := by
  have hclosed := closed_reachable hc
  refine ⟨fun a b assumed answer assumed' h => isEqualWithin_keeps _ h, fun a b assumed => ?_,
    fun pairs hpairs => ?_⟩
  · constructor
    · rintro ⟨answer, h⟩
      exact comparable_of_isEqualFrom h
    · intro h
      exact Comparable.isEqualFrom hclosed h assumed
  · obtain ⟨answers, hanswers, hall⟩ := equalInTurn_eq_ok hclosed [] pairs hpairs
    refine ⟨answers, hanswers, hall.imp fun p answer h => ?_⟩
    have hfresh := isEqual_eq_ok_iff.mpr h
    exact ⟨hfresh, isEqual_swap hclosed hfresh⟩

/-- The unrolled record, and two more records with a field of each other's type, one of which has
another name. -/
def misspelledRecord : List Command := unrolledRecord ++ [
  .make (.begin (.type .struct)) .dummy,
  .make (.begin (.type .struct)) .dummy,
  .make (.build (.node (.qualifiedType .none) [.ref ⟨11⟩])) .dummy,
  .make (.build (.node (.declaration (.field (.text "next"))) [.owned ⟨12⟩])) .dummy,
  .make (.build (.node (.qualifiedType .none) [.ref ⟨10⟩])) .dummy,
  .make (.build (.node (.declaration (.field (.text "last"))) [.owned ⟨14⟩])) .dummy,
  .push ⟨10⟩ (.owned ⟨13⟩),
  .push ⟨11⟩ (.owned ⟨15⟩)]

/-- The difference is met four steps below the records, and the pairs on the way to it differ still
when they are asked about later. A comparison that starts with the very pair that differs is misled
by it and hands it back. -/
theorem comparisons_in_turn_misspelledRecord :
    let g := (runAll misspelledRecord .fresh).graph
    let pairs : List (NodeId × NodeId) :=
      [(⟨0⟩, ⟨10⟩), (⟨12⟩, ⟨3⟩), (⟨2⟩, ⟨13⟩), (⟨10⟩, ⟨0⟩), (⟨0⟩, ⟨4⟩), (⟨4⟩, ⟨0⟩)]
    Reachable (runAll misspelledRecord .fresh)
      ∧ g.isEqualFrom ⟨0⟩ ⟨10⟩ [(⟨0⟩, ⟨11⟩)] = .ok (true, [(⟨0⟩, ⟨11⟩)])
      ∧ g.equalInTurn pairs [] = .ok ([false, false, false, false, true, true], [])
      ∧ List.Forall₂ (fun p answer => g.isEqual p.1 p.2 = .ok answer
        ∧ g.isEqual p.2 p.1 = .ok answer) pairs [false, false, false, false, true, true] := by
  intro g pairs
  have hreach : Reachable (runAll misspelledRecord .fresh) := leads_runAll _ (.refl _)
  obtain ⟨hkeeps, _, hturn⟩ := comparisons_in_turn hreach
  have hmisled : (g.isEqualFrom ⟨0⟩ ⟨10⟩ [(⟨0⟩, ⟨11⟩)]).map Prod.fst = .ok true := by
    decide +kernel
  have hpairs : ∀ p ∈ pairs, p.1 ∈ g ∧ p.2 ∈ g := by decide +kernel
  have hlist : g.equalInTurn pairs [] = .ok ([false, false, false, false, true, true], []) := by
    decide +kernel
  obtain ⟨answers, hanswers, hall⟩ := hturn pairs fun p hp => .inr (hpairs p hp)
  rw [hlist] at hanswers
  obtain rfl := (Prod.mk.inj (Except.ok.inj hanswers)).1
  refine ⟨hreach, ?_, hlist, hall⟩
  cases hrun : g.isEqualFrom ⟨0⟩ ⟨10⟩ [(⟨0⟩, ⟨11⟩)] with
  | error fault => simp [hrun, Except.map] at hmisled
  | ok result =>
    obtain ⟨answer, assumed⟩ := result
    obtain rfl := hkeeps _ _ _ _ _ hrun
    obtain rfl : answer = true := by simpa [hrun, Except.map] using hmisled
    rfl

end SyntaxGraph.Graph
