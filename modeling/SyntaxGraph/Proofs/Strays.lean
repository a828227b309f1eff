import SyntaxGraph.Proofs.Depth
import SyntaxGraph.Proofs.Handles

/-!
# Answers that lead out of the graph

A pass may answer that a child is to give way to an edge whose target is no node.
Below the root of the pass such an answer comes before the check for the slot, and
that looks for the target first: whatever the pass has done while it decided, the
slot is still there, so nothing else can be wrong before. The run ends with an
error that names the target, and the answer is the last one that was given.

At the root there is no slot, and so there is no check. A reference is handed back
as the new root, and something owned is read as if it were there. To say which of
the answers was given where, a run is repeated with a list of what was decided.
-/

namespace SyntaxGraph

open Relation

/-! ## What was decided -/

/-- What a pass answered. -/
structure Decision where
  offered : NodeId
  action : Action
  /-- The graph when the answer was given. -/
  graph : Graph
  deriving DecidableEq

/-- The answer is to put the edge in the place of the node, and the edge leads out of the graph. -/
def Decision.Strays (d : Decision) (e : Edge) : Prop := d.action = .replace e ∧ e.target ∉ d.graph

section Decisions

variable {σ ε : Type}

/-- The pass, with a list of what it answered. -/
def Pass.deciding (offer : Pass σ ε) : Pass (σ × List Decision) ε := fun id s =>
  match offer id s.forget with
  | .ok action t =>
    .ok action ⟨t.context, t.memory, s.memory.2 ++ [⟨id, action, t.context.graph⟩]⟩
  | .error cause t => .error cause ⟨t.context, t.memory, s.memory.2⟩

/-- What a pass answers in a run, in order. -/
def Pass.decisions (offer : Pass σ ε) (depth : Nat) (root : NodeId) (s : PassState σ) :
    List Decision :=
  (after (offer.deciding.run depth root) ⟨s.context, s.memory, []⟩).memory.2

theorem Pass.extends_deciding (offer : Pass σ ε) (id : NodeId) :
    Extends (offer id) (offer.deciding id) := by
  intro s
  unfold deciding
  cases offer id s.forget <;> rfl

/-- **The list changes nothing else.** -/
theorem Pass.extends_decidingRun (offer : Pass σ ε) (depth : Nat) (root : NodeId) :
    Extends (offer.run depth root) (offer.deciding.run depth root) :=
  Pass.lifts_run lifts_extends extends_replaceChild offer offer.deciding offer.extends_deciding
    depth root

/-- What a pass does once its root has been offered. -/
def Pass.heedAtRoot (below : NodeId → PassM σ ε Nat) (root : NodeId) :
    Action → PassM σ ε PassOutcome
  | .prune => pure ⟨root, 0⟩
  | .descend => do return ⟨root, ← below root⟩
  | .replace (.ref target) => pure ⟨target, if target = root then 0 else 1⟩
  | .replace (.owned new) => do return ⟨new, (if new = root then 0 else 1) + (← below new)⟩

theorem Pass.atRoot_eq (offer : Pass σ ε) (below : NodeId → PassM σ ε Nat) (root : NodeId) :
    offer.atRoot below root = offer root >>= heedAtRoot below root := by
  unfold atRoot
  refine congrArg (offer root >>= ·) (funext fun action => ?_)
  cases action with
  | prune => rfl
  | descend => rfl
  | replace e => cases e <;> rfl

end Decisions

/-! ## A slot does not go away -/

namespace Graph

variable {g g' : Graph} {parent : NodeId} {index : Nat} {old e : Edge}

theorem edge?_of_changes (h : ReflTransGen Change g g') (hedge : g.edge? parent index = some old) :
    ∃ later, g'.edge? parent index = some later := by
  obtain ⟨node, hn⟩ := mem_iff_node?.mp (mem_of_edge? hedge)
  obtain ⟨node', hn', hbecomes⟩ := becomes_changes h hn
  rw [edge?_of_node? hn] at hedge
  have hlt : index < node.children.length := (List.getElem?_eq_some_iff.mp hedge).1
  have hle := hbecomes.length_le
  rw [edge?_of_node? hn']
  exact ⟨_, List.getElem?_eq_getElem (by omega)⟩

/-- In a slot that is there the target is the first thing that is looked for. -/
theorem checkReplace_stray (hclosed : Closed g) (hlaid : LaidOut g)
    (hedge : g.edge? parent index = some old) (htarget : e.target ∉ g) :
    g.checkReplace parent index e = .error (.unknownNode e.target) := by
  obtain ⟨node, hn⟩ := mem_iff_node?.mp (mem_of_edge? hedge)
  have hchild : node.children[index]? = some old := by rw [← edge?_of_node? hn, hedge]
  obtain ⟨_, _, hslot⟩ := hlaid.fits parent node.kind (kind?_of_node? hn) index old hedge
  have hne : old ≠ e := by
    intro heq
    subst heq
    exact htarget (hclosed.target_mem hedge)
  have hunknown : g.known e.target = .error (.unknownNode e.target) := by
    rw [known, not_mem_iff_node?.mp htarget]
  have hcheck : g.checkSlot node.kind index e.target = .error (.unknownNode e.target) := by
    simp only [checkSlot, hslot, hunknown, bind, Except.bind]
  simp only [checkReplace, known_eq_ok.mpr hn, hchild, hne, hcheck, bind, Except.bind, if_false]

end Graph

/-! ## Below the root -/

section Below

variable {σ ε α β : Type}

/-- If the step ends well, no answer on the way led out of the graph. If it does not, then only the
last answer may have done so, and the error names what it led to. -/
def Minds (step : PassM (σ × List Decision) ε α) (s : PassState (σ × List Decision)) : Prop :=
  ∃ made, (after step s).memory.2 = s.memory.2 ++ made ∧
    match step s with
    | .ok _ t => Reachable t.context ∧ ∀ d ∈ made, ∀ e, ¬ d.Strays e
    | .error cause _ => ∀ (i : Nat) d e, made[i]? = some d → d.Strays e →
      i + 1 = made.length ∧ cause = .node (.unknownNode e.target)

variable {s : PassState (σ × List Decision)}

theorem minds_of_ok {step : PassM (σ × List Decision) ε α} {a : α}
    {t : PassState (σ × List Decision)} (made : List Decision) (h : step s = .ok a t)
    (hmade : t.memory.2 = s.memory.2 ++ made) (ht : Reachable t.context)
    (hnone : ∀ d ∈ made, ∀ e, ¬ d.Strays e) : Minds step s := by
  refine ⟨made, ?_, ?_⟩
  · rw [after, h, hmade]
  · rw [h]
    exact ⟨ht, hnone⟩

theorem minds_of_error {step : PassM (σ × List Decision) ε α} {cause : PassError ε}
    {t : PassState (σ × List Decision)} (made : List Decision) (h : step s = .error cause t)
    (hmade : t.memory.2 = s.memory.2 ++ made)
    (hlast : ∀ (i : Nat) d e, made[i]? = some d → d.Strays e →
      i + 1 = made.length ∧ cause = .node (.unknownNode e.target)) : Minds step s := by
  refine ⟨made, ?_, ?_⟩
  · rw [after, h, hmade]
  · rw [h]
    exact hlast

theorem minds_pure (hs : Reachable s.context) (a : α) :
    Minds (pure a : PassM (σ × List Decision) ε α) s :=
  minds_of_ok [] rfl (List.append_nil _).symm hs (by simp)

theorem minds_ask (hs : Reachable s.context) (question : Graph → Except Fault α) :
    Minds (PassM.ask (ε := ε) question) s := by
  cases h : question s.context.graph with
  | ok a =>
    have hask : PassM.ask (ε := ε) question s = .ok a s := by rw [PassM.ask, h]
    exact minds_of_ok [] hask (List.append_nil _).symm hs (by simp)
  | error fault =>
    have hask : PassM.ask (ε := ε) question s = .error (.node (.fault fault)) s := by
      rw [PassM.ask, h]
    exact minds_of_error [] hask (List.append_nil _).symm (by simp)

theorem minds_replaceChild (hs : Reachable s.context) (parent : NodeId) (index : Nat) (e : Edge) :
    Minds (PassM.replaceChild (ε := ε) parent index e) s := by
  cases hcheck : s.context.graph.checkReplace parent index e with
  | error cause =>
    have hrun : PassM.replaceChild (ε := ε) parent index e s = .error (.node cause) s := by
      simp only [PassM.replaceChild, hcheck]
    exact minds_of_error [] hrun (List.append_nil _).symm (by simp)
  | ok old =>
    obtain ⟨n, t, hrun, hmemory⟩ : ∃ n t,
        PassM.replaceChild (ε := ε) parent index e s = .ok n t ∧ t.memory = s.memory := by
      by_cases hold : old = e <;> simp [PassM.replaceChild, hcheck, hold]
    have hmade : t.memory.2 = s.memory.2 ++ [] := by rw [hmemory, List.append_nil]
    exact minds_of_ok [] hrun hmade (reachable_of_replaceChild hs hrun) (by simp)

/-- A stray answer can only be the last of the first step or the last of the second one. -/
theorem minds_bind {x : PassM (σ × List Decision) ε α} {f : α → PassM (σ × List Decision) ε β}
    (hx : Minds x s) (hf : ∀ a t, x s = .ok a t → Reachable t.context → Minds (f a) t) :
    Minds (x >>= f) s := by
  obtain ⟨first, hfirst, hx⟩ := hx
  cases hrun : x s with
  | error cause t =>
    rw [after, hrun] at hfirst
    rw [hrun] at hx
    exact minds_of_error first (run_bind_eq_error.mpr (.inl hrun)) hfirst hx
  | ok a t =>
    rw [after, hrun] at hfirst
    rw [hrun] at hx
    obtain ⟨ht, hnone⟩ := hx
    obtain ⟨second, hsecond, hout⟩ := hf a t hrun ht
    have hmade : t.memory.2 ++ second = s.memory.2 ++ (first ++ second) := by
      rw [← List.append_assoc, ← hfirst]
    cases hrest : f a t with
    | ok b u =>
      rw [after, hrest] at hsecond
      rw [hrest] at hout
      refine minds_of_ok (first ++ second) (run_bind_eq_ok.mpr ⟨a, t, hrun, hrest⟩)
        (hsecond.trans hmade) hout.1 fun d hd => ?_
      rcases List.mem_append.mp hd with hd | hd
      · exact hnone d hd
      · exact hout.2 d hd
    | error cause u =>
      rw [after, hrest] at hsecond
      rw [hrest] at hout
      refine minds_of_error (first ++ second)
        (run_bind_eq_error.mpr (.inr ⟨a, t, hrun, hrest⟩)) (hsecond.trans hmade) ?_
      intro i d e hd hstrays
      by_cases hi : i < first.length
      · rw [List.getElem?_append_left hi] at hd
        exact absurd hstrays (hnone d (List.mem_of_getElem? hd) e)
      · rw [List.getElem?_append_right (by omega)] at hd
        obtain ⟨hlast, hcause⟩ := hout _ d e hd hstrays
        rw [List.length_append]
        exact ⟨by omega, hcause⟩

theorem minds_foldlM {f : β → α → PassM (σ × List Decision) ε β}
    (hf : ∀ b a s, Reachable s.context → Minds (f b a) s) (l : List α) :
    ∀ b s, Reachable s.context → Minds (l.foldlM f b) s := by
  induction l with
  | nil => exact fun b s hs => minds_pure hs b
  | cons a rest ih =>
    intro b s hs
    rw [List.foldlM_cons]
    exact minds_bind (hf b a s hs) fun b t _ ht => ih b t ht

variable {offer : Pass σ ε} (hcalls : ∀ id t, Leads t.context (after (offer id) t).context)

include hcalls

/-- What an offer leaves behind is a context that the program may come to. -/
theorem reachable_of_offer {id : NodeId} {s t : PassState σ} {action : Action}
    (hs : Reachable s.context) (hrun : offer id s = .ok action t) : Reachable t.context := by
  have hleads := hcalls id s
  rw [after, hrun] at hleads
  exact hs.trans hleads

/-- No node goes away while an offer is decided. -/
theorem mem_of_offer {id other : NodeId} {s t : PassState σ} {action : Action}
    (hother : other ∈ s.context.graph) (hrun : offer id s = .ok action t) :
    other ∈ t.context.graph := by
  have hleads := hcalls id s
  rw [after, hrun] at hleads
  obtain ⟨node, hn⟩ := Graph.mem_iff_node?.mp hother
  obtain ⟨later, hlater, _⟩ := Graph.becomes_changes (changes_graph (leads_changes hleads)) hn
  exact Graph.mem_iff_node?.mpr ⟨later, hlater⟩

theorem minds_deciding {id : NodeId} (hs : Reachable s.context)
    (hstays : ∀ action t, offer id s.forget = .ok action t →
      ∀ e, ¬ Decision.Strays ⟨id, action, t.context.graph⟩ e) : Minds (offer.deciding id) s := by
  cases hrun : offer id s.forget with
  | ok action t =>
    have hdeciding : offer.deciding id s =
        .ok action ⟨t.context, t.memory, s.memory.2 ++ [⟨id, action, t.context.graph⟩]⟩ := by
      rw [Pass.deciding, hrun]
    refine minds_of_ok [⟨id, action, t.context.graph⟩] hdeciding rfl ?_ fun d hd => ?_
    · exact reachable_of_offer hcalls (s := s.forget) hs hrun
    · rw [List.mem_singleton.mp hd]
      exact hstays action t hrun
  | error cause t =>
    have hdeciding : offer.deciding id s = .error cause ⟨t.context, t.memory, s.memory.2⟩ := by
      rw [Pass.deciding, hrun]
    exact minds_of_error [] hdeciding (List.append_nil _).symm (by simp)

/-- If the answer for a child leads out of the graph, then the slot is still there and the
replacement is refused. -/
theorem Pass.atSlot_stray {below : NodeId → PassM (σ × List Decision) ε Nat} {parent child : NodeId}
    {changed index : Nat} (hs : Reachable s.context)
    (hslot : s.context.graph.edge? parent index = some (.owned child)) {e : Edge} {t : PassState σ}
    (hrun : offer child s.forget = .ok (.replace e) t) (htarget : e.target ∉ t.context.graph) :
    offer.deciding.atSlot below parent changed index s =
      .error (.node (.unknownNode e.target))
        ⟨t.context, t.memory, s.memory.2 ++ [⟨child, .replace e, t.context.graph⟩]⟩ := by
  have hleads := hcalls child s.forget
  rw [after, hrun] at hleads
  have ht : Reachable t.context := hs.trans hleads
  obtain ⟨later, hlater⟩ := Graph.edge?_of_changes (changes_graph (leads_changes hleads)) hslot
  have hcheck := Graph.checkReplace_stray (Graph.closed_reachable ht) (Graph.laidOut_reachable ht)
    hlater htarget
  simp only [atSlot, atSlotBy, PassM.ask, bind, EStateM.bind, hslot, deciding, hrun,
    PassM.replaceChild, hcheck]

theorem Pass.minds_atSlot {below : NodeId → PassM (σ × List Decision) ε Nat}
    (hbelow : ∀ id s, Reachable s.context → Minds (below id) s) (parent : NodeId)
    (changed index : Nat) (hs : Reachable s.context) :
    Minds (offer.deciding.atSlot below parent changed index) s := by
  by_cases hstray : ∃ child e t, s.context.graph.edge? parent index = some (.owned child)
      ∧ offer child s.forget = .ok (.replace e) t ∧ e.target ∉ t.context.graph
  · obtain ⟨child, e, t, hslot, hrun, htarget⟩ := hstray
    refine minds_of_error [⟨child, .replace e, t.context.graph⟩]
      (atSlot_stray hcalls hs hslot hrun htarget) rfl ?_
    intro i d e' hd hstrays
    cases i with
    | zero =>
      obtain rfl : _ = d := Option.some.inj hd
      have he : e = e' := Action.replace.inj hstrays.1
      exact ⟨rfl, by rw [he]⟩
    | succ i => simp at hd
  · unfold atSlot
    refine minds_bind (minds_ask hs _) fun slot t hask ht => ?_
    obtain ⟨rfl, rfl⟩ := EStateM.Result.ok.inj hask
    split
    case h_2 => exact minds_pure ht _
    case h_1 child hslot =>
      refine minds_bind (minds_deciding hcalls ht ?_) fun action t _ ht => ?_
      · intro action t hrun e hstrays
        obtain ⟨rfl, htarget⟩ := hstrays
        exact hstray ⟨child, e, t, hslot, hrun, htarget⟩
      cases action with
      | prune => exact minds_pure ht _
      | descend => exact minds_bind (hbelow child t ht) fun _ _ _ hu => minds_pure hu _
      | replace e =>
        refine minds_bind (minds_replaceChild ht _ _ _) fun _ u _ hu => ?_
        cases e with
        | ref target => exact minds_pure hu _
        | owned new => exact minds_bind (hbelow new u hu) fun _ _ _ hv => minds_pure hv _

/-- **Below a node the run minds every answer that leads out of the graph.** -/
theorem Pass.minds_runBelow (depth : Nat) :
    ∀ parent s, Reachable s.context → Minds (offer.deciding.runBelow depth parent) s := by
  induction depth with
  | zero =>
    intro parent s hs
    exact minds_of_error [] rfl (List.append_nil _).symm (by simp)
  | succ depth ih =>
    intro parent s hs
    rw [runBelow_succ]
    refine minds_bind (minds_ask hs _) fun node t _ ht => ?_
    exact minds_foldlM (fun changed index u hu => minds_atSlot hcalls ih parent changed index hu)
      _ 0 t ht

end Below

/-! ## At the root -/

section Root

variable {σ ε : Type}

theorem minds_heedAtRoot {below : NodeId → PassM (σ × List Decision) ε Nat}
    (hbelow : ∀ id s, Reachable s.context → Minds (below id) s) (root : NodeId) (action : Action)
    {s : PassState (σ × List Decision)} (hs : Reachable s.context) :
    Minds (Pass.heedAtRoot below root action) s := by
  cases action with
  | prune => exact minds_pure hs _
  | descend => exact minds_bind (hbelow root s hs) fun _ _ _ ht => minds_pure ht _
  | replace e =>
    cases e with
    | ref target => exact minds_pure hs _
    | owned new => exact minds_bind (hbelow new s hs) fun _ _ _ ht => minds_pure ht _

/-- A reference that leads out of the graph becomes the new root. -/
theorem heedAtRoot_ref {below : NodeId → PassM σ ε Nat} {root target : NodeId} {s : PassState σ}
    (hroot : root ∈ s.context.graph) (htarget : target ∉ s.context.graph) :
    Pass.heedAtRoot below root (.replace (.ref target)) s = .ok ⟨target, 1⟩ s := by
  have hne : target ≠ root := by
    intro heq
    exact htarget (heq ▸ hroot)
  simp only [Pass.heedAtRoot, hne, if_false]
  rfl

/-- What is owned and is not there is read all the same. -/
theorem heedAtRoot_owned {offer : Pass σ ε} {depth : Nat} {root new : NodeId} {s : PassState σ}
    (hnew : new ∉ s.context.graph) :
    Pass.heedAtRoot (offer.runBelow (depth + 1)) root (.replace (.owned new)) s =
      .error (.node (.fault (.stray new))) s := by
  have hread : s.context.graph.read new = .error (.stray new) := by
    rw [Graph.read, Graph.not_mem_iff_node?.mp hnew]
  simp only [Pass.heedAtRoot, Pass.runBelow_succ, PassM.ask, bind, EStateM.bind, hread]

variable {offer : Pass σ ε} {depth : Nat} {root : NodeId} {s : PassState σ}

theorem decisions_of_error {cause : PassError ε} {t : PassState σ}
    (h : offer root s = .error cause t) : offer.decisions depth root s = [] := by
  have hdeciding : offer.deciding root ⟨s.context, s.memory, []⟩ =
      .error cause ⟨t.context, t.memory, []⟩ := by
    have hforget : offer root (PassState.forget ⟨s.context, s.memory, ([] : List Decision)⟩) =
        .error cause t := h
    rw [Pass.deciding, hforget]
  rw [Pass.decisions, Pass.run_eq_atRoot, Pass.atRoot_eq, after_bind, hdeciding]

/-- The run after the root has been offered and the answer written down. -/
theorem decidingRun_of_ok {action : Action} {t : PassState σ} (h : offer root s = .ok action t)
    (depth : Nat) :
    offer.deciding.run depth root ⟨s.context, s.memory, []⟩ =
      Pass.heedAtRoot (offer.deciding.runBelow depth) root action
        ⟨t.context, t.memory, [⟨root, action, t.context.graph⟩]⟩ := by
  have hdeciding : offer.deciding root ⟨s.context, s.memory, []⟩ =
      .ok action ⟨t.context, t.memory, [⟨root, action, t.context.graph⟩]⟩ := by
    have hforget : offer root (PassState.forget ⟨s.context, s.memory, ([] : List Decision)⟩) =
        .ok action t := h
    rw [Pass.deciding, hforget]
    rfl
  simp only [Pass.run_eq_atRoot, Pass.atRoot_eq, bind, EStateM.bind, hdeciding]

theorem run_of_decidingRun {outcome : EStateM.Result (PassError ε) (PassState (σ × List Decision))
    PassOutcome} (h : offer.deciding.run depth root ⟨s.context, s.memory, []⟩ = outcome) :
    offer.run depth root s = forgetResult outcome := by
  rw [← h]
  exact (offer.extends_decidingRun depth root ⟨s.context, s.memory, []⟩).symm

/-- What a run comes to if the answer for its root is an edge that leads out of the graph. -/
def Unreported (e : Edge) (outcome : EStateM.Result (PassError ε) (PassState σ) PassOutcome) :
    Prop :=
  match e with
  | .ref target => ∃ t, outcome = .ok ⟨target, 1⟩ t
  | .owned new => ∃ t, outcome = .error (.node (.fault (.stray new))) t

/-- An answer for the root that leads out of the graph is the only one, and is not reported. -/
theorem unreported_at_root {e : Edge} {t : PassState σ} (h : offer root s = .ok (.replace e) t)
    (hroot : root ∈ t.context.graph) (htarget : e.target ∉ t.context.graph) (depth : Nat) :
    offer.decisions (depth + 1) root s = [⟨root, .replace e, t.context.graph⟩]
      ∧ Unreported e (offer.run (depth + 1) root s) := by
  cases e with
  | ref target =>
    have hrun := (decidingRun_of_ok h (depth + 1)).trans (heedAtRoot_ref hroot htarget)
    refine ⟨?_, _, run_of_decidingRun hrun⟩
    rw [Pass.decisions, after, hrun]
  | owned new =>
    have hrun := (decidingRun_of_ok h (depth + 1)).trans (heedAtRoot_owned htarget)
    refine ⟨?_, _, run_of_decidingRun hrun⟩
    rw [Pass.decisions, after, hrun]

end Root

/-- The pass reports every answer that leads out of the graph, by an error that names where the
answer leads. -/
def ReportsStrays {σ ε : Type} (offer : Pass σ ε) (depth : Nat) (root : NodeId) (s : PassState σ) :
    Prop :=
  ∀ d ∈ offer.decisions depth root s, ∀ e, d.Strays e →
    ∃ t, offer.run depth root s = .error (.node (.unknownNode e.target)) t

section Runs

variable {σ ε : Type} {offer : Pass σ ε} {root : NodeId} {s : PassState σ}
  (hcalls : ∀ id t, Leads t.context (after (offer id) t).context)

include hcalls

/-- What the list holds after the first answer was decided below the root. -/
theorem decisions_of_ok {action : Action} {t : PassState σ} (hs : Reachable s.context)
    (h : offer root s = .ok action t) (depth : Nat) :
    ∃ made, offer.decisions depth root s = ⟨root, action, t.context.graph⟩ :: made
      ∧ ∀ (i : Nat) d e, made[i]? = some d → d.Strays e → i + 1 = made.length
        ∧ ∃ u, offer.run depth root s = .error (.node (.unknownNode e.target)) u := by
  have hrun : offer.deciding.run depth root ⟨s.context, s.memory, []⟩ = _ :=
    decidingRun_of_ok h depth
  obtain ⟨made, hmade, hout⟩ := minds_heedAtRoot (Pass.minds_runBelow hcalls depth) root action
    (s := ⟨t.context, t.memory, [⟨root, action, t.context.graph⟩]⟩) (reachable_of_offer hcalls hs h)
  refine ⟨made, ?_, fun i d e hd hstrays => ?_⟩
  · rw [Pass.decisions, after, hrun]
    exact hmade
  · split at hout
    next hheed => exact absurd hstrays (hout.2 d (List.mem_of_getElem? hd) e)
    next cause u hheed =>
      obtain ⟨hlast, rfl⟩ := hout i d e hd hstrays
      exact ⟨hlast, _, run_of_decidingRun (hrun.trans hheed)⟩

/-- What becomes of an answer that leads out of the graph, given where it stands in the list. -/
theorem stray_decided (hs : Reachable s.context) (hroot : root ∈ s.context.graph) (depth : Nat)
    {i : Nat} {d : Decision} {e : Edge} (hd : (offer.decisions (depth + 1) root s)[i]? = some d)
    (hstrays : d.Strays e) :
    i + 1 = (offer.decisions (depth + 1) root s).length
      ∧ (0 < i → ∃ t, offer.run (depth + 1) root s = .error (.node (.unknownNode e.target)) t)
      ∧ (i = 0 → d.offered = root ∧ Unreported e (offer.run (depth + 1) root s)) := by
  cases hoffer : offer root s with
  | error cause t =>
    rw [decisions_of_error hoffer] at hd
    exact absurd hd (by simp)
  | ok action t =>
    obtain ⟨made, hdecisions, hbelow⟩ := decisions_of_ok hcalls hs hoffer (depth + 1)
    rw [hdecisions] at hd ⊢
    cases i with
    | zero =>
      obtain rfl : _ = d := Option.some.inj hd
      obtain ⟨rfl, htarget⟩ := hstrays
      have hroot : root ∈ t.context.graph := mem_of_offer hcalls hroot hoffer
      obtain ⟨hone, hunreported⟩ := unreported_at_root hoffer hroot htarget depth
      rw [hone] at hdecisions
      rw [← hdecisions]
      exact ⟨rfl, fun h => absurd h (Nat.lt_irrefl 0), fun _ => ⟨rfl, hunreported⟩⟩
    | succ j =>
      obtain ⟨hlast, hreported⟩ := hbelow j d e hd hstrays
      exact ⟨by rw [List.length_cons, hlast], fun _ => hreported, fun h => absurd h (by omega)⟩

end Runs

/-- **Below its root a pass reports every answer that leads out of the graph.** Such an answer is
the last one that is given, and the run ends with an error that names where it leads. An answer for
the root is not reported: a reference becomes the new root, and something owned is read where there
is nothing to be read. So all such answers are reported exactly if the first one is none. -/
theorem strays_reported {c : Context} (hc : Reachable c) {σ ε : Type} {offer : Pass σ ε}
    (hcalls : ∀ id t, Leads t.context (after (offer id) t).context) {depth : Nat}
    (hdepth : 0 < depth) {root : NodeId} (hroot : root ∈ c.graph) (memory : σ) :
    (∀ (i : Nat) d e, (offer.decisions depth root ⟨c, memory⟩)[i]? = some d → d.Strays e →
        i + 1 = (offer.decisions depth root ⟨c, memory⟩).length
          ∧ (0 < i → ∃ t, offer.run depth root ⟨c, memory⟩ =
            .error (.node (.unknownNode e.target)) t)
          ∧ (i = 0 → d.offered = root ∧ Unreported e (offer.run depth root ⟨c, memory⟩)))
      ∧ (ReportsStrays offer depth root ⟨c, memory⟩ ↔
        ∀ d e, (offer.decisions depth root ⟨c, memory⟩)[0]? = some d → ¬ d.Strays e) := by
  obtain ⟨k, rfl⟩ : ∃ k, depth = k + 1 := ⟨depth - 1, by omega⟩
  refine ⟨fun i d e hd hstrays => stray_decided hcalls hc hroot k hd hstrays, ?_, ?_⟩
  · intro hreports d e hd hstrays
    obtain ⟨t, hrun⟩ := hreports d (List.mem_of_getElem? hd) e hstrays
    obtain ⟨_, _, hfirst⟩ := stray_decided hcalls hc hroot k hd hstrays
    obtain ⟨_, hunreported⟩ := hfirst rfl
    rw [hrun] at hunreported
    cases e <;> simp [Unreported] at hunreported
  · intro hnone d hd e hstrays
    obtain ⟨i, hi⟩ := List.mem_iff_getElem?.mp hd
    cases i with
    | zero => exact absurd hstrays (hnone d e hi)
    | succ j =>
      obtain ⟨_, hlater, _⟩ := stray_decided hcalls hc hroot k hi hstrays
      exact hlater (Nat.succ_pos j)

/-- Puts a reference to nowhere in the place of the wrapper in the sample record. -/
def unwrap : Pass Unit Unit := fun id =>
  if id = ⟨3⟩ then pure (.replace (.ref .invalid)) else pure .descend

/-- The wrapper is two levels below the root of the pass. -/
theorem strays_reported_linkedRecord :
    let c := runAll linkedRecord .fresh
    Reachable c ∧ (∀ id t, Leads t.context (after (unwrap id) t).context) ∧ ⟨0⟩ ∈ c.graph
      ∧ unwrap.decisions 4 ⟨0⟩ ⟨c, ()⟩ = [⟨⟨0⟩, .descend, c.graph⟩, ⟨⟨2⟩, .descend, c.graph⟩,
          ⟨⟨3⟩, .replace (.ref .invalid), c.graph⟩]
      ∧ ReportsStrays unwrap 4 ⟨0⟩ ⟨c, ()⟩
      ∧ ∃ t, unwrap.run 4 ⟨0⟩ ⟨c, ()⟩ = .error (.node (.unknownNode .invalid)) t := by
  intro c
  have hc : Reachable c := leads_runAll linkedRecord (.refl _)
  have hcalls : ∀ id t, Leads t.context (after (unwrap id) t).context := by
    intro id t
    by_cases hid : id = ⟨3⟩
    · rw [unwrap, if_pos hid]
      exact .refl _
    · rw [unwrap, if_neg hid]
      exact .refl _
  have hroot : (⟨0⟩ : NodeId) ∈ c.graph := by decide +kernel
  have hinvalid : NodeId.invalid ∉ c.graph := by decide +kernel
  have hdecisions : unwrap.decisions 4 ⟨0⟩ ⟨c, ()⟩ = [⟨⟨0⟩, .descend, c.graph⟩,
      ⟨⟨2⟩, .descend, c.graph⟩, ⟨⟨3⟩, .replace (.ref .invalid), c.graph⟩] := by decide +kernel
  -- the rest follows from these facts, and nothing more is to be evaluated
  clear_value c
  obtain ⟨hanswers, hreports⟩ := strays_reported hc hcalls (Nat.succ_pos 3) hroot ()
  rw [hdecisions] at hanswers hreports
  refine ⟨hc, hcalls, hroot, hdecisions, hreports.mpr ?_, ?_⟩
  · intro d e hd hstrays
    obtain rfl : _ = d := Option.some.inj hd
    exact Action.noConfusion hstrays.1
  · exact (hanswers 2 _ (.ref .invalid) rfl ⟨rfl, hinvalid⟩).2.1 (Nat.succ_pos 1)

/-- Puts a reference to nowhere in the place of whatever it is offered. -/
def discard : Pass Unit Unit := fun _ => pure (.replace (.ref .invalid))

/-- A type and nothing else. -/
def loneType : List Command := [.make (.build (.node (.type .bool) [])) .dummy]

/-- Not even a pass that makes no calls has all its answers reported: the root gives way to a
reference that leads nowhere, and the run ends well. -/
theorem exists_not_reportsStrays :
    ¬ ∀ c, Reachable c → ∀ offer : Pass Unit Unit,
      (∀ id t, Leads t.context (after (offer id) t).context) → ∀ root ∈ c.graph,
        ReportsStrays offer c.graph.size root ⟨c, ()⟩ := by
  intro h
  have hc : Reachable (runAll loneType .fresh) := leads_runAll loneType (.refl _)
  have hcalls : ∀ id t, Leads t.context (after (discard id) t).context := fun _ t => .refl t.context
  have hroot : (⟨0⟩ : NodeId) ∈ (runAll loneType .fresh).graph := by decide +kernel
  have hinvalid : NodeId.invalid ∉ (runAll loneType .fresh).graph := by decide +kernel
  have hsize : (runAll loneType .fresh).graph.size = 0 + 1 := by decide +kernel
  have hreports := h _ hc discard hcalls ⟨0⟩ hroot
  generalize runAll loneType .fresh = c at *
  have hanswer : discard ⟨0⟩ ⟨c, ()⟩ = .ok (.replace (.ref .invalid)) ⟨c, ()⟩ := rfl
  obtain ⟨hdecisions, t, hrun⟩ := unreported_at_root hanswer hroot hinvalid 0
  rw [hsize] at hreports
  obtain ⟨u, hreported⟩ := hreports _ (hdecisions ▸ List.mem_singleton.mpr rfl) (.ref .invalid)
    ⟨rfl, hinvalid⟩
  rw [hrun] at hreported
  cases hreported

end SyntaxGraph
