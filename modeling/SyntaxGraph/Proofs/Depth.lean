import Mathlib.Data.List.Chain
import SyntaxGraph.Proofs.Atomicity
import SyntaxGraph.Proofs.Reachable

/-!
# How deep a pass goes

Nothing becomes less while a pass works. What it puts in a slot may be larger
than what was there, and a tree that one slot let go may come back in another
one, further down. Still the pass comes to an end, and it never goes deeper than
the graph has nodes.

The nodes that the pass has come down through are a line of owners, each of them
owned by the next. A line has no node twice, so it is no longer than the arena.
It stays a line as long as the pass is below its first node: a replacement there
takes in a node that nothing owns, and lets go one that the first node owns, and
neither is on the line.

How deep a pass is allowed to go makes no difference then, as long as it is as
deep as the graph has nodes (`Outlasts`).
-/

namespace SyntaxGraph

/-! ## What a step comes to -/

section Yields

variable {σ ε α β : Type} {permitted : PassError ε → Prop}

/-- The step ends with an answer and in a state that meet the condition, or with an error that is
permitted. -/
def Yields (permitted : PassError ε → Prop) (step : PassM σ ε α) (s : PassState σ)
    (Q : α → PassState σ → Prop) : Prop :=
  match step s with
  | .ok a t => Q a t
  | .error cause _ => permitted cause

theorem yields_of_ok {step : PassM σ ε α} {s t : PassState σ} {a : α} {Q : α → PassState σ → Prop}
    (h : step s = .ok a t) : Yields permitted step s Q ↔ Q a t := by
  rw [Yields, h]

/-- Where no error is permitted and one outcome is left, the step comes to that. -/
theorem eq_ok_of_yields {step : PassM σ ε α} {s t : PassState σ} {a : α}
    (h : Yields (fun _ => False) step s fun b u => b = a ∧ u = t) : step s = .ok a t := by
  rw [Yields] at h
  split at h
  next b u hstep =>
    obtain ⟨rfl, rfl⟩ := h
    exact hstep
  next => exact absurd h id

theorem Yields.mono {step : PassM σ ε α} {s : PassState σ} {P Q : α → PassState σ → Prop}
    (h : Yields permitted step s P) (hPQ : ∀ a t, P a t → Q a t) : Yields permitted step s Q := by
  unfold Yields at *
  cases hstep : step s with
  | error cause t => rwa [hstep] at h
  | ok a t =>
    rw [hstep] at h
    exact hPQ a t h

theorem yields_bind {x : PassM σ ε α} {f : α → PassM σ ε β} {s : PassState σ}
    {Q : β → PassState σ → Prop}
    (h : Yields permitted x s fun a t => Yields permitted (f a) t Q) :
    Yields permitted (x >>= f) s Q := by
  unfold Yields at *
  simp only [bind, EStateM.bind]
  cases hx : x s with
  | error cause t => rwa [hx] at h
  | ok a t =>
    rw [hx] at h
    exact h

/-- A loop, given what holds as long as so much of the list is left. -/
theorem yields_foldlM {f : β → α → PassM σ ε β} {I : List α → β → PassState σ → Prop}
    (hf : ∀ b a rest s, I (a :: rest) b s → Yields permitted (f b a) s (I rest))
    (l : List α) : ∀ (b : β) (s : PassState σ), I l b s →
      Yields permitted (l.foldlM f b) s (I []) := by
  induction l with
  | nil => exact fun _ _ h => h
  | cons a rest ih =>
    intro b s h
    rw [List.foldlM_cons]
    exact yields_bind ((hf b a rest s h).mono ih)

theorem yields_ask {question : Graph → Except Fault α} {s : PassState σ} {a : α}
    {Q : α → PassState σ → Prop} (h : question s.context.graph = .ok a) (hQ : Q a s) :
    Yields permitted (PassM.ask question) s Q := by
  have hask : PassM.ask (ε := ε) question s = .ok a s := by rw [PassM.ask, h]
  exact (yields_of_ok hask).mpr hQ

/-- What a pass does in the slot of a child once the child has been offered, and how many edges that
changes. -/
def Pass.Heeds (permitted : PassError ε → Prop) (below : NodeId → PassM σ ε Nat)
    (parent : NodeId) (index : Nat) (child : NodeId) (Q : Nat → PassState σ → Prop)
    (action : Action) (s : PassState σ) : Prop :=
  match action with
  | .prune => Q 0 s
  | .descend => Yields permitted (below child) s Q
  | .replace (.ref target) =>
    Yields permitted (PassM.replaceChild parent index (.ref target)) s Q
  | .replace (.owned new) =>
    Yields permitted (PassM.replaceChild parent index (.owned new)) s fun n t =>
      Yields permitted (below new) t fun m u => Q (n + m) u

variable {offer : Pass σ ε} {below : NodeId → PassM σ ε Nat}

/-- A slot that owns nothing is passed over. What it owns is offered, and the answer heeded. -/
theorem Pass.yields_atSlot {parent : NodeId} {changed index : Nat} {s : PassState σ}
    {Q : Nat → PassState σ → Prop}
    (hvacant : (∀ child, s.context.graph.edge? parent index ≠ some (.owned child)) → Q changed s)
    (howned : ∀ child, s.context.graph.edge? parent index = some (.owned child) →
      Yields permitted (offer child) s
        (Heeds permitted below parent index child fun n => Q (changed + n))) :
    Yields permitted (offer.atSlot below parent changed index) s Q := by
  unfold atSlot
  refine yields_bind (yields_ask rfl ?_)
  split
  case h_2 hnot => exact hvacant fun child h => hnot child h
  case h_1 child hchild =>
    refine yields_bind ((howned child hchild).mono fun action t h => ?_)
    cases action with
    | prune => exact h
    | descend => exact yields_bind h
    | replace e =>
      cases e with
      | ref target => exact yields_bind h
      | owned new =>
        refine yields_bind (Yields.mono h fun n u hn => ?_)
        refine yields_bind (Yields.mono hn fun m v hm => ?_)
        exact (Nat.add_assoc changed n m).symm ▸ hm

/-- Below a node the slots are visited one after the other, given what holds as long as so many of
them are left. -/
theorem Pass.yields_runBelow {depth : Nat} {parent : NodeId} {s : PassState σ} {node : Node}
    {I : List Nat → Nat → PassState σ → Prop} (hn : s.context.graph.node? parent = some node)
    (hslot : ∀ changed index rest t, I (index :: rest) changed t →
      Yields permitted (offer.atSlot (offer.runBelow depth) parent changed index) t (I rest))
    (h : I (List.range node.children.length) 0 s) :
    Yields permitted (offer.runBelow (depth + 1) parent) s (I []) := by
  rw [runBelow_succ]
  exact yields_bind (yields_ask (Graph.read_of_node? hn) (yields_foldlM hslot _ 0 s h))

/-- At the root the answer decides which node the pass goes below, if any. -/
theorem Pass.yields_run {depth : Nat} {root : NodeId} {s : PassState σ}
    {Q : PassOutcome → PassState σ → Prop}
    (h : Yields permitted (offer root) s fun action t =>
      match action with
      | .prune => Q ⟨root, 0⟩ t
      | .descend => Yields permitted (offer.runBelow depth root) t fun n => Q ⟨root, n⟩
      | .replace (.ref target) => Q ⟨target, if target = root then 0 else 1⟩ t
      | .replace (.owned new) => Yields permitted (offer.runBelow depth new) t fun n =>
        Q ⟨new, (if new = root then 0 else 1) + n⟩) :
    Yields permitted (offer.run depth root) s Q := by
  rw [run_eq_atRoot]
  refine yields_bind (h.mono fun action t h => ?_)
  cases action with
  | prune => exact h
  | descend => exact yields_bind h
  | replace e =>
    cases e with
    | ref target => exact h
    | owned new => exact yields_bind h

end Yields

/-! ## The line of owners -/

namespace Graph

variable {g : Graph}

/-- Each node is owned by the one after it. -/
def Line (g : Graph) (way : List NodeId) : Prop :=
  way.IsChain fun child owner => g.Owns owner child

theorem above_of_mem_line {way : List NodeId} : ∀ {top : NodeId}, g.Line (top :: way) →
    ∀ id ∈ top :: way, g.Above id top := by
  induction way with
  | nil =>
    intro top _ id hid
    obtain rfl := List.mem_singleton.mp hid
    exact .here id
  | cons owner rest ih =>
    intro top hline id hid
    obtain ⟨howns, hrest⟩ := List.isChain_cons_cons.mp hline
    rcases List.mem_cons.mp hid with rfl | hid
    · exact .here id
    · exact .up howns (ih hrest id hid)

/-- **A line has no node twice.** -/
theorem OwnInv.nodup_line (h : OwnInv g) {way : List NodeId} : ∀ {top : NodeId},
    g.Line (top :: way) → (top :: way).Nodup := by
  induction way with
  | nil => exact fun _ => List.nodup_singleton _
  | cons owner rest ih =>
    intro top hline
    obtain ⟨howns, hrest⟩ := List.isChain_cons_cons.mp hline
    refine List.nodup_cons.mpr ⟨fun hmem => ?_, ih hrest⟩
    exact not_above_owner h.rooted top owner howns (above_of_mem_line hrest top hmem)

theorem OwnInv.mem_above (h : OwnInv g) {id start : NodeId} (habove : g.Above id start) :
    start ∈ g → id ∈ g := by
  induction habove with
  | here => exact fun hid => hid
  | up howns _ ih => exact fun _ => ih (h.owner_mem howns)

/-- **A line is no longer than the arena.** -/
theorem OwnInv.length_line_le (h : OwnInv g) {top : NodeId} {way : List NodeId} (htop : top ∈ g)
    (hline : g.Line (top :: way)) : (top :: way).length ≤ g.size := by
  refine length_le_size (h.nodup_line hline) fun id hid => ?_
  exact h.mem_above (above_of_mem_line hline id hid) htop

/-- Whoever owns a node or one above it goes on to do so when a child of the node is replaced. -/
theorem OwnInv.owns_setChild (h : OwnInv g) {parent : NodeId} {index : Nat} {old new : Edge}
    (hcheck : g.checkReplace parent index new = .ok old) (hne : old ≠ new) {owner id : NodeId}
    (habove : g.Above id parent) (howns : g.Owns owner id) :
    (g.setChild parent index old new).Owns owner id := by
  obtain ⟨_, _, _, hnew⟩ := checkReplace_eq_ok.mp hcheck
  obtain ⟨hfits, hadopt, _⟩ := hnew hne
  have hin : new ≠ .owned id := by
    rintro rfl
    have hfree := (hadopt id rfl).1.unowned
    exact absurd (howns.symm.trans hfree) (by simp)
  have hout : old ≠ .owned id := by
    rintro rfl
    exact not_above_owner h.rooted id parent (h.owns_of_edge? (edge?_of_checkReplace hcheck)) habove
  rw [Owns, parent?_setChild parent index old hfits.mem, if_neg hin, if_neg hout]
  exact howns

/-- **A line stays a line** when a child of its first node is replaced. -/
theorem OwnInv.line_setChild (h : OwnInv g) {parent : NodeId} {index : Nat} {old new : Edge}
    (hcheck : g.checkReplace parent index new = .ok old) (hne : old ≠ new) {way : List NodeId}
    (hline : g.Line (parent :: way)) : (g.setChild parent index old new).Line (parent :: way) := by
  refine List.IsChain.imp_of_mem_imp (fun id _ hid _ howns => ?_) hline
  exact h.owns_setChild hcheck hne (above_of_mem_line hline id hid) howns

end Graph

/-! ## Passes that answer -/

section Passes

variable {σ ε : Type} {offer : Pass σ ε}

/-- The pass answers whatever node it is offered in a context that calls can lead to, and changes
nothing but its memory. -/
def Pass.Answers (offer : Pass σ ε) : Prop :=
  ∀ id s, Reachable s.context → id ∈ s.context.graph →
    ∃ action memory, offer id s = .ok action ⟨s.context, memory⟩

/-- The graph has refused a replacement, for a reason that is no fault. -/
def Refusal (cause : PassError ε) : Prop :=
  ∃ reason, cause = .node reason ∧ ∀ fault, reason ≠ .fault fault

/-- The pass has come down the line to its first node, in a graph of so many nodes. -/
structure Stands (size : Nat) (way : List NodeId) (s : PassState σ) : Prop where
  reachable : Reachable s.context
  size_eq : s.context.graph.size = size
  mem : ∀ id ∈ way, id ∈ s.context.graph
  line : s.context.graph.Line way

theorem Stands.tail {size : Nat} {top : NodeId} {way : List NodeId} {s : PassState σ}
    (h : Stands size (top :: way) s) : Stands size way s where
  reachable := h.reachable
  size_eq := h.size_eq
  mem id hid := h.mem id (List.mem_cons_of_mem top hid)
  line := h.line.tail

/-- From a slot the pass comes down to what the slot owns. -/
theorem Stands.down {size : Nat} {top child : NodeId} {way : List NodeId} {s : PassState σ}
    (h : Stands size (top :: way) s) {index : Nat}
    (hedge : s.context.graph.edge? top index = some (.owned child)) :
    Stands size (child :: top :: way) s := by
  have hown := Graph.ownInv_reachable h.reachable
  have hchild : child ∈ s.context.graph := hown.closed.target_mem hedge
  exact ⟨h.reachable, h.size_eq, List.forall_mem_cons.mpr ⟨hchild, h.mem⟩,
    List.isChain_cons_cons.mpr ⟨hown.owns_of_edge? hedge, h.line⟩⟩

theorem reachable_of_replaceChild {s t : PassState σ} (h : Reachable s.context) {parent : NodeId}
    {index n : Nat} {e : Edge}
    (hrun : PassM.replaceChild (ε := ε) parent index e s = .ok n t) : Reachable t.context := by
  have hafter := after_replaceChild (ε := ε) parent index e s
  rw [after, hrun] at hafter
  exact hafter ▸ h.command (.replace parent index e)

theorem replaceChild_of_ok {s : PassState σ} {parent : NodeId} {index : Nat} {old e : Edge}
    (hcheck : s.context.graph.checkReplace parent index e = .ok old) (hne : old ≠ e) :
    PassM.replaceChild (ε := ε) parent index e s = .ok 1
      ⟨⟨s.context.graph.setChild parent index old e, s.context.names⟩, s.memory⟩ := by
  simp [PassM.replaceChild, hcheck, hne]

/-- A replacement leaves the pass where it stands, with the edge in the slot. -/
theorem Stands.replaceChild {size : Nat} {top : NodeId} {way : List NodeId} {s : PassState σ}
    (h : Stands size (top :: way) s) (index : Nat) (e : Edge) :
    Yields (ε := ε) Refusal (PassM.replaceChild top index e) s fun _ t =>
      Stands size (top :: way) t ∧ t.context.graph.edge? top index = some e := by
  have hown := Graph.ownInv_reachable h.reachable
  cases hcheck : s.context.graph.checkReplace top index e with
  | error cause =>
    have hrun : PassM.replaceChild (ε := ε) top index e s = .error (.node cause) s := by
      rw [PassM.replaceChild, hcheck]
    rw [Yields, hrun]
    exact ⟨cause, rfl, fun fault hf =>
      Graph.decides_checkReplace hown top index e fault (hf ▸ hcheck)⟩
  | ok old =>
    have hedge := Graph.edge?_of_checkReplace hcheck
    by_cases hne : old = e
    · have hrun : PassM.replaceChild (ε := ε) top index e s = .ok 0 s := by
        simp [PassM.replaceChild, hcheck, hne]
      exact (yields_of_ok hrun).mpr ⟨h, hne ▸ hedge⟩
    · have hrun := replaceChild_of_ok (ε := ε) hcheck hne
      refine (yields_of_ok hrun).mpr ⟨⟨reachable_of_replaceChild h.reachable hrun, ?_,
        fun id hid => Graph.mem_setChild.mpr (h.mem id hid),
        hown.line_setChild hcheck hne h.line⟩, ?_⟩
      · rw [← h.size_eq]
        simp [Graph.setChild]
      · exact (Graph.edge?_setChild hedge e top index).trans (if_pos ⟨rfl, rfl⟩)

/-- **Below a node a pass does not run out of depth**, if it may go as deep as the arena has nodes,
less those that it has come down through. It stands where it stood in the end. -/
theorem stands_runBelow (hanswers : offer.Answers) (size depth : Nat) :
    ∀ (top : NodeId) (way : List NodeId) (s : PassState σ), size ≤ depth + way.length →
      Stands size (top :: way) s →
        Yields Refusal (offer.runBelow depth top) s fun _ => Stands size (top :: way) := by
  induction depth with
  | zero =>
    intro top way s hsize h
    have hle := (Graph.ownInv_reachable h.reachable).length_line_le (h.mem top (by simp)) h.line
    rw [h.size_eq, List.length_cons] at hle
    omega
  | succ depth ih =>
    intro top way s hsize h
    -- one node more on the line makes up for the depth
    have hbelow : ∀ {child : NodeId} {index : Nat} {t : PassState σ},
        Stands size (top :: way) t → t.context.graph.edge? top index = some (.owned child) →
          Yields Refusal (offer.runBelow depth child) t fun _ => Stands size (top :: way) :=
      fun ht hedge => (ih _ _ _ (by rw [List.length_cons]; omega) (ht.down hedge)).mono
        fun _ _ hdown => hdown.tail
    obtain ⟨node, hn⟩ := Graph.mem_iff_node?.mp (h.mem top (by simp))
    refine Pass.yields_runBelow (I := fun _ _ => Stands size (top :: way)) hn ?_ h
    intro changed index rest t ht
    refine Pass.yields_atSlot (fun _ => ht) fun child hedge => ?_
    obtain ⟨action, memory, hoffer⟩ :=
      hanswers child t ht.reachable ((ht.down hedge).mem child (by simp))
    refine (yields_of_ok hoffer).mpr ?_
    have ht' : Stands size (top :: way) (⟨t.context, memory⟩ : PassState σ) :=
      ⟨ht.reachable, ht.size_eq, ht.mem, ht.line⟩
    cases action with
    | prune => exact ht'
    | descend => exact hbelow ht' hedge
    | replace e =>
      have hreplace := ht'.replaceChild (ε := ε) index e
      cases e with
      | ref target => exact hreplace.mono fun _ _ hu => hu.1
      | owned new => exact hreplace.mono fun _ _ hu => hbelow hu.1 hu.2

/-- The same from the root on, if the node in its place is one of the graph. -/
theorem refusal_run (hanswers : offer.Answers) {s : PassState σ} (hc : Reachable s.context)
    {root : NodeId} (hroot : root ∈ s.context.graph)
    (hplace : ∀ new memory, offer root s = .ok (.replace (.owned new)) ⟨s.context, memory⟩ →
      new ∈ s.context.graph) {depth : Nat} (hdepth : s.context.graph.size ≤ depth) :
    Yields Refusal (offer.run depth root) s fun _ t =>
      Reachable t.context ∧ t.context.graph.size = s.context.graph.size := by
  obtain ⟨action, memory, hoffer⟩ := hanswers root s hc hroot
  refine Pass.yields_run ((yields_of_ok hoffer).mpr ?_)
  have hbelow : ∀ top ∈ s.context.graph, Yields Refusal (offer.runBelow depth top)
      ⟨s.context, memory⟩ fun _ t =>
        Reachable t.context ∧ t.context.graph.size = s.context.graph.size := by
    intro top htop
    have hstands : Stands s.context.graph.size [top] (⟨s.context, memory⟩ : PassState σ) :=
      ⟨hc, rfl, by simpa using htop, List.isChain_singleton top⟩
    exact (stands_runBelow hanswers _ depth top [] _ hdepth hstands).mono
      fun _ _ h => ⟨h.reachable, h.size_eq⟩
  cases action with
  | prune => exact ⟨hc, rfl⟩
  | descend => exact hbelow root hroot
  | replace e =>
    cases e with
    | ref target => exact ⟨hc, rfl⟩
    | owned new => exact hbelow new (hplace new memory hoffer)

end Passes

/-! ## Deeper than needed -/

section Outlasts

variable {σ ε α : Type} {offer : Pass σ ε}

/-- The second step does the same as the first one, unless the first one runs out of depth. -/
def Outlasts (x x' : PassM σ ε α) : Prop :=
  ∀ s, (∃ t, x s = .error (.node (.fault .unending)) t) ∨ x' s = x s

theorem lifts_outlasts :
    Lifts fun {α} (x : PassM σ ε α) (x' : PassM σ ε α) => Outlasts x x' where
  pure _ _ := .inr rfl
  bind {_ _ x x' f f'} hx hf s := by
    simp only [bind, EStateM.bind]
    rcases hx s with ⟨t, hend⟩ | hsame
    · exact .inl ⟨t, by rw [hend]⟩
    · rw [hsame]
      cases x s with
      | error cause t => exact .inr rfl
      | ok a t => exact hf a t
  ask _ _ := .inr rfl

theorem outlasts_runBelow (offer : Pass σ ε) (depth : Nat) : ∀ {more : Nat}, depth ≤ more →
    ∀ top, Outlasts (offer.runBelow depth top) (offer.runBelow more top) := by
  induction depth with
  | zero => exact fun _ _ s => .inl ⟨s, rfl⟩
  | succ depth ih =>
    intro more hle top
    obtain ⟨more, rfl⟩ : ∃ m, more = m + 1 := ⟨more - 1, by omega⟩
    rw [Pass.runBelow_succ, Pass.runBelow_succ]
    refine lifts_outlasts.bind (fun _ => .inr rfl) fun node => ?_
    exact lifts_foldlM lifts_outlasts (Pass.lifts_atSlot lifts_outlasts (fun _ _ _ _ => .inr rfl)
      (fun _ _ => .inr rfl) (ih (by omega)) top) _ _

/-- **A pass that does not run out of depth does the same when it may go deeper.** -/
theorem outlasts_run (offer : Pass σ ε) {depth more : Nat} (hle : depth ≤ more) (root : NodeId) :
    Outlasts (offer.run depth root) (offer.run more root) :=
  Pass.lifts_atRoot lifts_outlasts (fun _ _ => .inr rfl) (outlasts_runBelow offer depth hle) root

theorem run_eq_of_yields {permitted : PassError ε → Prop} {depth more : Nat} {root : NodeId}
    {s : PassState σ} {Q : PassOutcome → PassState σ → Prop}
    (h : Yields permitted (offer.run depth root) s Q)
    (hending : ¬ permitted (.node (.fault .unending))) (hle : depth ≤ more) :
    offer.run more root s = offer.run depth root s := by
  rcases outlasts_run offer hle root s with ⟨t, hend⟩ | hsame
  · rw [Yields, hend] at h
    exact absurd h hending
  · exact hsame

end Outlasts

theorem not_refusal_fault {ε : Type} (fault : Fault) :
    ¬ Refusal (.node (.fault fault) : PassError ε) := by
  rintro ⟨reason, hreason, hnot⟩
  exact hnot fault (PassError.node.inj hreason).symm

/-- **Every pass that answers comes to an end**, and goes no deeper than the graph has nodes. It
ends with an outcome or with a refused replacement, whatever it answers and whatever it remembers,
also where it puts back what it took away; and to let it go deeper than that makes no difference.
Only what it puts in the place of the root has to be a node of the graph. -/
theorem passes_end {c : Context} (hc : Reachable c) {σ ε : Type} {offer : Pass σ ε}
    (hanswers : offer.Answers) (root : NodeId) (hroot : root ∈ c.graph) (memory : σ)
    (hplace : ∀ new memory', offer root ⟨c, memory⟩ = .ok (.replace (.owned new)) ⟨c, memory'⟩ →
      new ∈ c.graph) :
    Yields Refusal (offer.run c.graph.size root) ⟨c, memory⟩ (fun _ _ => True)
      ∧ ∀ depth, c.graph.size ≤ depth →
          offer.run depth root ⟨c, memory⟩ = offer.run c.graph.size root ⟨c, memory⟩ := by
  have hrun := refusal_run hanswers (s := ⟨c, memory⟩) hc hroot hplace (Nat.le_refl _)
  exact ⟨hrun.mono fun _ _ _ => trivial,
    fun depth hle => run_eq_of_yields hrun (not_refusal_fault _) hle⟩

/-- Two trees of a grouping around a grouping around an expression. -/
def twoTrees : List Command := [
  .make (.build (.typed (.expression .void) .none (.leaf .void) [])) .dummy,
  .make (.build (.node (.expression .grouping) [.owned ⟨2⟩])) .dummy,
  .make (.build (.node (.expression .grouping) [.owned ⟨3⟩])) .dummy,
  .make (.build (.typed (.expression .void) .none (.leaf .void) [])) .dummy,
  .make (.build (.node (.expression .grouping) [.owned ⟨7⟩])) .dummy,
  .make (.build (.node (.expression .grouping) [.owned ⟨8⟩])) .dummy]

/-- Puts the tree that it took away last in the place of the next one. -/
def takeTurns : Pass NodeId Unit := fun id s =>
  if id ∈ ([⟨3⟩, ⟨8⟩, ⟨2⟩, ⟨7⟩] : List NodeId) then .ok (.replace (.owned s.memory)) ⟨s.context, id⟩
  else .ok .descend s

/-- Out of two trees the pass makes one that is nearly twice as deep: what it takes away comes back
further down, three times over. It ends nevertheless, however deep it may go. -/
theorem passes_end_twoTrees :
    Reachable (runAll twoTrees .fresh) ∧ takeTurns.Answers
      ∧ ∀ depth, 10 ≤ depth → ∃ t,
        takeTurns.run depth ⟨4⟩ ⟨runAll twoTrees .fresh, ⟨9⟩⟩ = .ok ⟨⟨4⟩, 4⟩ t
          ∧ ([⟨4⟩, ⟨9⟩, ⟨3⟩, ⟨8⟩, ⟨2⟩] : List NodeId).map t.context.graph.ownedChildren =
            [[⟨9⟩], [⟨3⟩], [⟨8⟩], [⟨2⟩], [⟨1⟩]] := by
  have hreach : Reachable (runAll twoTrees .fresh) := leads_runAll _ (.refl _)
  have hanswers : takeTurns.Answers := by
    intro id s _ _
    by_cases hid : id ∈ ([⟨3⟩, ⟨8⟩, ⟨2⟩, ⟨7⟩] : List NodeId)
    · exact ⟨_, id, if_pos hid⟩
    · exact ⟨_, s.memory, if_neg hid⟩
  have hsize : (runAll twoTrees .fresh).graph.size = 10 := by decide +kernel
  have hends := passes_end hreach hanswers ⟨4⟩ (by decide +kernel) ⟨9⟩ (fun _ _ h => nomatch h)
  rw [hsize] at hends
  refine ⟨hreach, hanswers, fun depth hdepth => ?_⟩
  rw [hends.2 depth hdepth]
  have hrun : (match takeTurns.run 10 ⟨4⟩ ⟨runAll twoTrees .fresh, ⟨9⟩⟩ with
      | .ok outcome t => some (outcome, ([⟨4⟩, ⟨9⟩, ⟨3⟩, ⟨8⟩, ⟨2⟩] : List NodeId).map
        t.context.graph.ownedChildren)
      | .error _ _ => none) =
        some (⟨⟨4⟩, 4⟩, [[⟨9⟩], [⟨3⟩], [⟨8⟩], [⟨2⟩], [⟨1⟩]]) := by decide +kernel
  cases hresult : takeTurns.run 10 ⟨4⟩ ⟨runAll twoTrees .fresh, ⟨9⟩⟩ with
  | error cause t => simp [hresult] at hrun
  | ok outcome t =>
    simp only [hresult, Option.some.injEq, Prod.mk.injEq] at hrun
    exact ⟨t, hrun.1 ▸ rfl, hrun.2⟩

end SyntaxGraph
