import SyntaxGraph.Proofs.Layouts
import SyntaxGraph.Proofs.Monotone
import SyntaxGraph.Proofs.Ownership
import SyntaxGraph.Proofs.Phases

/-!
# A replacement can be undone

A replacement answers what was in the slot before. Putting that back is another
replacement, and it has to pass the same checks, in a graph that has changed. It
passes all but one of them.

What was in the slot fits the slot. If the slot owned it, it is finished, and
nothing owns it now. It is not above the slot either: the way up from there is
what it was, since neither what the slot let go nor what it took in was on it.
Only the check for a regression can fail, where what is in the slot now is
resolved and what was there before is not.

Both writes together change nothing. A node that the slot owned gets back the
owner that it had, and a node that it came to own had none before.
-/

namespace SyntaxGraph

namespace Graph

variable {g : Graph} {parent : NodeId} {index : Nat} {old new : Edge}

/-- The way up from the slot is what it was before. -/
theorem above_of_above_setChild (hcheck : g.checkReplace parent index new = .ok old)
    (hne : old ≠ new) {id start : NodeId}
    (habove : (g.setChild parent index old new).Above id start) :
    g.Above start parent → g.Above id parent := by
  obtain ⟨_, _, _, hnew⟩ := checkReplace_eq_ok.mp hcheck
  obtain ⟨hfits, hadopt, _⟩ := hnew hne
  induction habove with
  | here => exact fun hstart => hstart
  | @up owner start hp _ ih =>
    intro hstart
    rw [parent?_setChild parent index old hfits.mem] at hp
    split at hp
    · -- what the slot takes in is not above it
      rename_i hin
      exact absurd hstart (not_above_of_isAbove (hadopt start hin).2)
    · split at hp
      · exact absurd hp (by simp)
      · exact ih (above_owner hstart hp)

/-- **What the slot let go can be adopted again.** -/
theorem OwnInv.adoptable_setChild (h : OwnInv g)
    (hcheck : g.checkReplace parent index new = .ok old) (hne : old ≠ new) :
    (g.setChild parent index old new).Adoptable parent old := by
  obtain ⟨_, _, _, hnew⟩ := checkReplace_eq_ok.mp hcheck
  have hslot := edge?_of_checkReplace hcheck
  have hown := ownInv_setChild h hcheck hne
  rintro child rfl
  refine ⟨⟨?frozen, ?unowned⟩, ?apart⟩
  case frozen =>
    rw [isFrozen_setChild]
    exact h.frozen parent child (mem_edges_iff.mpr ⟨index, hslot⟩)
  case unowned =>
    rw [parent?_setChild parent index _ (hnew hne).1.mem, if_neg hne.symm, if_pos rfl]
  case apart =>
    obtain ⟨above, hask, hiff⟩ := hown.isAbove_ends child (mem_setChild.mpr (mem_of_edge? hslot))
    have hnot : ¬ above = true := by
      intro htrue
      refine not_above_owner h.rooted child parent (h.owns_of_edge? hslot) ?_
      exact above_of_above_setChild hcheck hne (hiff.mp htrue) (.here parent)
    rw [hask, Bool.eq_false_iff.mpr hnot]

/-- **Two replacements that undo each other change nothing.** -/
theorem OwnInv.setChild_setChild (h : OwnInv g)
    (hcheck : g.checkReplace parent index new = .ok old) (hne : old ≠ new) :
    (g.setChild parent index old new).setChild parent index new old = g := by
  obtain ⟨owner, howner, hold, hnew⟩ := checkReplace_eq_ok.mp hcheck
  obtain ⟨_, hadopt, _⟩ := hnew hne
  refine ext_node? fun id => ?_
  rw [node?_setChild, node?_setChild, Option.map_map]
  cases hn : g.node? id with
  | none => rfl
  | some node =>
    have hparent : g.parent? id = node.parent := by simp [parent?, hn]
    -- the edges are what they were
    have hchildren : (if id = parent then
        (if id = parent then node.children.set index new else node.children).set index old
        else if id = parent then node.children.set index new else node.children) =
          node.children := by
      by_cases hid : id = parent
      · obtain rfl : owner = node := Option.some.inj (howner.symm.trans (hid ▸ hn))
        obtain ⟨hlt, hget⟩ := List.getElem?_eq_some_iff.mp hold
        rw [if_pos hid, if_pos hid, List.set_set, ← hget, List.set_getElem_self]
      · rw [if_neg hid, if_neg hid]
    -- and so is the owner
    have howners : (if old = .owned id then some parent
        else if new = .owned id then none
        else if new = .owned id then some parent
        else if old = .owned id then none else node.parent) = node.parent := by
      by_cases hout : old = .owned id
      · have ho : g.parent? id = some parent := by
          have hslot : g.edge? parent index = some (.owned id) :=
            (edge?_of_checkReplace hcheck).trans (congrArg some hout)
          exact h.owns_of_edge? hslot
        rw [if_pos hout, ← ho, hparent]
      · by_cases hin : new = .owned id
        · rw [if_neg hout, if_pos hin, ← hparent, (hadopt id hin).1.unowned]
        · simp only [if_neg hout, if_neg hin]
    exact congrArg some (by simp only [Function.comp, hchildren, howners])

/-- The way back passes every check but the last. -/
theorem OwnInv.checkReplace_back (h : OwnInv g) (hlaid : LaidOut g)
    (hcheck : g.checkReplace parent index new = .ok old) (hne : old ≠ new) :
    ∃ resolved resolved',
      (g.setChild parent index old new).isResolved new.target = .ok resolved
        ∧ (g.setChild parent index old new).isResolved old.target = .ok resolved'
        ∧ (g.setChild parent index old new).checkReplace parent index old =
          if resolved = true ∧ resolved' = false then .error (.resolutionRegressed parent index)
          else .ok new := by
  obtain ⟨owner, howner, hold, hnew⟩ := checkReplace_eq_ok.mp hcheck
  have hslot := edge?_of_checkReplace hcheck
  have hown := ownInv_setChild h hcheck hne
  have hfits : g.Fits owner.kind index old.target :=
    hlaid.fits parent owner.kind (kind?_of_node? howner) index old hslot
  have hn := node?_setChild g parent index old new parent
  rw [howner, Option.map_some, if_pos rfl] at hn
  have hget : (owner.children.set index new)[index]? = some new := by
    rw [List.getElem?_set, if_pos rfl, if_pos (List.getElem?_eq_some_iff.mp hold).1]
  obtain ⟨resolved, hask, _⟩ :=
    isResolved_eq_ok hown.closed (mem_setChild.mpr (hnew hne).1.mem)
  obtain ⟨resolved', hask', _⟩ := isResolved_eq_ok hown.closed (mem_setChild.mpr hfits.mem)
  refine ⟨resolved, resolved', hask, hask', checkReplace_of_questions hn hget hne.symm ?_ ?_ hask
    hask'⟩
  · exact checkSlot_eq_ok.mpr (hfits.of_kind? fun id _ => kind?_setChild _ _ _ _ id)
  · exact checkEdge_eq_ok.mpr (h.adoptable_setChild hcheck hne)

end Graph

/-- **A replacement can be undone.** Whatever program has come to the context, if a child is
replaced by another edge, of whichever sort the two are and also if both lead to one node, then the
same command with the edge that was there before answers the other one and restores the context. The
one exception is that what is in the slot now is resolved and what was there before is not: then it
is refused, and nothing changes. -/
theorem replacement_undone {c c' : Context} (hc : Reachable c) {parent : NodeId} {index : Nat}
    {old new : Edge} (hrun : (Command.replace parent index new).run c = .ok (.replaced old) c') :
    ∃ resolved resolved', c'.graph.isResolved new.target = .ok resolved
      ∧ c'.graph.isResolved old.target = .ok resolved'
      ∧ (Command.replace parent index old).run c' =
        if resolved = true ∧ resolved' = false then
          .error (.node (.resolutionRegressed parent index)) c'
        else .ok (.replaced new) c := by
  have hown := Graph.ownInv_reachable hc
  cases hcheck : c.graph.checkReplace parent index new with
  | error cause =>
    rw [Command.run_replace_of_error hcheck] at hrun
    exact absurd hrun (by simp)
  | ok current =>
    rw [Command.run_replace_of_ok hcheck] at hrun
    obtain ⟨hreply, rfl⟩ := EStateM.Result.ok.inj hrun
    obtain rfl := Reply.replaced.inj hreply
    by_cases hne : current = new
    · -- an edge that takes its own place changes nothing, neither way
      subst hne
      have hmem := hown.closed.target_mem (Graph.edge?_of_checkReplace hcheck)
      obtain ⟨resolved, hask, _⟩ := Graph.isResolved_eq_ok hown.closed hmem
      simp only [if_pos]
      refine ⟨resolved, resolved, hask, hask, ?_⟩
      rw [Command.run_replace_of_ok hcheck, if_pos rfl, if_neg]
      rintro ⟨rfl, hfalse⟩
      exact Bool.noConfusion hfalse
    · simp only [if_neg hne]
      obtain ⟨resolved, resolved', hask, hask', hback⟩ :=
        hown.checkReplace_back (Graph.laidOut_reachable hc) hcheck hne
      refine ⟨resolved, resolved', hask, hask', ?_⟩
      by_cases hregress : resolved = true ∧ resolved' = false
      · rw [if_pos hregress] at hback ⊢
        exact Command.run_replace_of_error hback
      · rw [if_neg hregress] at hback ⊢
        have hrun' : (Command.replace parent index current).run
            ⟨c.graph.setChild parent index current new, c.names⟩ = _ :=
          Command.run_replace_of_ok hback
        rw [hrun', if_neg (Ne.symm hne)]
        exact congrArg (EStateM.Result.ok (Reply.replaced new))
          (congrArg (Context.mk · c.names) (hown.setChild_setChild hcheck hne))

/-- The field of the sample record is made to refer to the wrapper that it owned, and comes to own
it again. A named type that has given way to the record does not come back. -/
theorem replacement_undone_recordAndStranger :
    let c := runAll recordAndStranger .fresh
    Reachable c
      ∧ (∃ c', (Command.replace ⟨2⟩ 0 (.ref ⟨3⟩)).run c = .ok (.replaced (.owned ⟨3⟩)) c'
        ∧ (Command.replace ⟨2⟩ 0 (.owned ⟨3⟩)).run c' = .ok (.replaced (.ref ⟨3⟩)) c)
      ∧ ∃ c', (Command.replace ⟨5⟩ 0 (.ref ⟨0⟩)).run c = .ok (.replaced (.owned ⟨4⟩)) c'
        ∧ (Command.replace ⟨5⟩ 0 (.owned ⟨4⟩)).run c' =
          .error (.node (.resolutionRegressed ⟨5⟩ 0)) c' := by
  have hc : Reachable (runAll recordAndStranger .fresh) := leads_runAll recordAndStranger (.refl _)
  refine ⟨hc, ?_, ?_⟩
  · have hcheck : (runAll recordAndStranger .fresh).graph.checkReplace ⟨2⟩ 0 (.ref ⟨3⟩) =
        .ok (.owned ⟨3⟩) := by decide +kernel
    have hrun := Command.run_replace_of_ok hcheck
    obtain ⟨resolved, resolved', hask, hask', hback⟩ := replacement_undone hc hrun
    obtain rfl := Except.ok.inj (hask.symm.trans hask')
    exact ⟨_, hrun, hback.trans (if_neg (by simp))⟩
  · have hcheck : (runAll recordAndStranger .fresh).graph.checkReplace ⟨5⟩ 0 (.ref ⟨0⟩) =
        .ok (.owned ⟨4⟩) := by decide +kernel
    have hrun := Command.run_replace_of_ok hcheck
    obtain ⟨resolved, resolved', hask, hask', hback⟩ := replacement_undone hc hrun
    have hnow : ((runAll recordAndStranger .fresh).graph.setChild ⟨5⟩ 0 (.owned ⟨4⟩)
        (.ref ⟨0⟩)).isResolved ⟨0⟩ = .ok true := by decide +kernel
    have hthen : ((runAll recordAndStranger .fresh).graph.setChild ⟨5⟩ 0 (.owned ⟨4⟩)
        (.ref ⟨0⟩)).isResolved ⟨4⟩ = .ok false := by decide +kernel
    obtain rfl : resolved = true := Except.ok.inj (hask.symm.trans hnow)
    obtain rfl : resolved' = false := Except.ok.inj (hask'.symm.trans hthen)
    exact ⟨_, hrun, hback.trans (if_pos ⟨rfl, rfl⟩)⟩

end SyntaxGraph
