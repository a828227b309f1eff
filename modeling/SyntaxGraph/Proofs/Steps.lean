import Mathlib.Order.Defs.Unbundled
import SyntaxGraph.Command
import SyntaxGraph.Pass
import SyntaxGraph.Proofs.Checks

/-!
# Steps that may fail

Commands and passes may be refused halfway and leave something behind, so what
counts is the context *after* a step, whether the step succeeds or fails. What a
relation allows of the parts of a step it allows of the step: `Allows` lists the
parts of a command, and `Lifts` the parts that two passes have in common.

While a pass decides what is to happen with a node, it may do to the context what
it likes. To speak of what it does in the run at hand, the run is recorded; the
record changes nothing else.
-/

namespace SyntaxGraph

/-! ## What is left behind -/

section Moves

variable {σ ε α β : Type}

/-- The state that a step leaves behind, whether it succeeds or fails. -/
def after (step : EStateM ε σ α) (s : σ) : σ :=
  match step s with
  | .ok _ s => s
  | .error _ s => s

/-- Wherever the step starts, it leaves behind a state that the relation allows. -/
def Moves (R : σ → σ → Prop) (step : EStateM ε σ α) : Prop := ∀ s, R s (after step s)

variable {R : σ → σ → Prop} [IsPreorder σ R]

theorem moves_pure (a : α) : Moves R (pure a : EStateM ε σ α) := fun s => refl s

theorem moves_throw (e : ε) : Moves R (throw e : EStateM ε σ α) := fun s => refl s

theorem after_bind (x : EStateM ε σ α) (f : α → EStateM ε σ β) (s : σ) :
    after (x >>= f) s =
      match x s with
      | .ok a t => after (f a) t
      | .error _ t => t := by
  unfold after
  simp only [bind, EStateM.bind]
  cases x s <;> rfl

omit [IsPreorder σ R] in
theorem run_bind_eq_ok {x : EStateM ε σ α} {f : α → EStateM ε σ β} {s t : σ} {b : β} :
    (x >>= f) s = .ok b t ↔ ∃ a u, x s = .ok a u ∧ f a u = .ok b t := by
  simp only [bind, EStateM.bind]
  cases x s <;> simp [and_assoc]

omit [IsPreorder σ R] in
theorem run_bind_eq_error {x : EStateM ε σ α} {f : α → EStateM ε σ β} {s t : σ} {e : ε} :
    (x >>= f) s = .error e t ↔ x s = .error e t ∨ ∃ a u, x s = .ok a u ∧ f a u = .error e t := by
  simp only [bind, EStateM.bind]
  cases x s <;> simp [and_assoc]

omit [IsPreorder σ R] in
theorem run_map_eq_error {x : EStateM ε σ α} {f : α → β} {s t : σ} {e : ε} :
    (do return f (← x)) s = .error e t ↔ x s = .error e t := by
  simp only [bind, EStateM.bind, pure, EStateM.pure]
  cases x s <;> simp

/-- What a step goes on with may be looked at where it stands. -/
theorem related_bind {x : EStateM ε σ α} {f : α → EStateM ε σ β} {s : σ} (hx : R s (after x s))
    (hf : ∀ a t, x s = .ok a t → R t (after (f a) t)) : R s (after (x >>= f) s) := by
  rw [after_bind]
  unfold after at hx
  cases h : x s with
  | error e t => rw [h] at hx; exact hx
  | ok a t =>
    rw [h] at hx
    exact trans_of R hx (hf a t h)

theorem moves_bind {x : EStateM ε σ α} {f : α → EStateM ε σ β}
    (hx : Moves R x) (hf : ∀ a, Moves R (f a)) : Moves R (x >>= f) :=
  fun s => related_bind (hx s) fun a t _ => hf a t

end Moves

/-! ## Room in the arena -/

namespace Build

variable {kind : Kind Name} {children : List Edge} {span : Span} {c c' : Context} {id : NodeId}

/-- A node is begun behind the others, if there is room. -/
theorem begin_eq_ok : begin kind span c = .ok id c' ↔ c.graph.HasRoom 1
    ∧ id = c.graph.nextId ∧ c' = { c with graph := c.graph.begin kind span } := by
  by_cases hroom : c.graph.HasRoom 1 <;>
    simp [begin, allocate, write, Graph.newId?, hroom, bind, EStateM.bind, pure, EStateM.pure,
      eq_comm]

theorem begin_of_full (h : ¬ c.graph.HasRoom 1) :
    begin kind span c = .error (.full c.graph.size) c := by
  simp [begin, allocate, Graph.newId?, h, bind, EStateM.bind]

theorem insert_eq_ok : insert kind children span c = .ok id c' ↔ c.graph.HasRoom 1
    ∧ id = c.graph.nextId ∧ c' = { c with graph := c.graph.insert kind children span } := by
  by_cases hroom : c.graph.HasRoom 1 <;>
    simp [insert, allocate, write, Graph.newId?, hroom, bind, EStateM.bind, pure, EStateM.pure,
      eq_comm]

theorem insert_of_full (h : ¬ c.graph.HasRoom 1) :
    insert kind children span c = .error (.full c.graph.size) c := by
  simp [insert, allocate, Graph.newId?, h, bind, EStateM.bind]

/-- A node is made if its children pass the check and there is room. -/
theorem create_eq_ok : create kind children span c = .ok id c' ↔
    c.graph.checkCreate kind children = .ok () ∧ c.graph.HasRoom 1
      ∧ id = c.graph.nextId ∧ c' = { c with graph := c.graph.insert kind children span } := by
  cases hcheck : c.graph.checkCreate kind children with
  | error cause => simp [create, check, bind, EStateM.bind, hcheck]
  | ok _ =>
    rw [← insert_eq_ok]
    simp [create, check, bind, EStateM.bind, hcheck]

theorem create_of_refused {cause : NodeError}
    (h : c.graph.checkCreate kind children = .error cause) :
    create kind children span c = .error (.node cause) c := by
  simp [create, check, bind, EStateM.bind, h]

theorem create_of_full (hcheck : c.graph.checkCreate kind children = .ok ())
    (h : ¬ c.graph.HasRoom 1) : create kind children span c = .error (.full c.graph.size) c := by
  simp [create, check, bind, EStateM.bind, hcheck, insert_of_full h]

end Build

/-! ## Commands -/

/-- The relation allows what commands consist of: interning a text, and every change of a graph but
for pushes and replacements, which a relation may allow in some cases only. -/
structure Allows (R : Context → Context → Prop) : Prop where
  intern : ∀ {c : Context} {s : String} {name : Name} {names : Interner},
    c.names.intern s = .ok (name, names) → R c { c with names := names }
  begin : ∀ {c : Context} (kind : Kind Name) (span : Span), c.graph.HasRoom 1 →
    R c { c with graph := c.graph.begin kind span }
  freeze : ∀ {c : Context} {id : NodeId}, c.graph.checkFreeze id = .ok () →
    R c { c with graph := c.graph.finish id }
  create : ∀ {c : Context} {kind : Kind Name} {children : List Edge} (span : Span),
    c.graph.HasRoom 1 → c.graph.checkCreate kind children = .ok () →
      R c { c with graph := c.graph.insert kind children span }

section Commands

variable {R : Context → Context → Prop} [IsPreorder Context R] (hR : Allows R)

include hR

namespace Build

theorem moves_intern (s : String) : Moves R (intern s) := by
  intro c
  unfold after intern
  cases h : c.names.intern s with
  | error cause => exact refl c
  | ok found =>
    obtain ⟨name, names⟩ := found
    exact hR.intern h

theorem moves_resolveKind (kind : Kind Label) : Moves R (resolveKind kind) := by
  unfold resolveKind
  split
  · exact moves_pure _
  · refine moves_bind ?_ fun name => moves_pure _
    rename_i label _
    cases label with
    | text s => exact moves_intern hR s
    | name n => exact moves_pure n

theorem moves_begin (kind : Kind Name) (span : Span) : Moves R (begin kind span) := by
  intro c
  unfold after
  by_cases hroom : c.graph.HasRoom 1
  · rw [begin_eq_ok.mpr ⟨hroom, rfl, rfl⟩]
    exact hR.begin kind span hroom
  · rw [begin_of_full hroom]
    exact refl c

omit hR in
theorem moves_check {α : Type} (question : Graph → Except NodeError α) :
    Moves R (check question) := by
  intro c
  unfold after check
  cases question c.graph <;> exact refl c

omit hR in
theorem check_eq_ok {α : Type} {question : Graph → Except NodeError α} {c t : Context} {a : α}
    (h : check question c = .ok a t) : question c.graph = .ok a ∧ t = c := by
  unfold check at h
  cases hq : question c.graph with
  | error cause => simp [hq] at h
  | ok answer =>
    rw [hq] at h
    injection h with ha ht
    exact ⟨by rw [ha], ht.symm⟩

omit hR [IsPreorder Context R] in
theorem check_eq_error {α : Type} {question : Graph → Except NodeError α} {c t : Context}
    {cause : BuildError} (h : check question c = .error cause t) :
    (∃ reason, cause = .node reason ∧ question c.graph = .error reason) ∧ t = c := by
  unfold check at h
  cases hq : question c.graph with
  | ok answer => simp [hq] at h
  | error reason =>
    rw [hq] at h
    injection h with hcause ht
    exact ⟨⟨reason, hcause.symm, rfl⟩, ht.symm⟩

theorem moves_create (kind : Kind Name) (children : List Edge) (span : Span) :
    Moves R (create kind children span) := by
  intro c
  refine related_bind (moves_check _ c) fun _ t h => ?_
  obtain ⟨hcheck, rfl⟩ := check_eq_ok h
  unfold after
  by_cases hroom : t.graph.HasRoom 1
  · rw [insert_eq_ok.mpr ⟨hroom, rfl, rfl⟩]
    exact hR.create span hroom hcheck
  · rw [insert_of_full hroom]
    exact refl t

theorem moves_freeze (id : NodeId) : Moves R (freeze id) := by
  intro c
  refine related_bind (moves_check _ c) fun _ t h => ?_
  obtain ⟨hcheck, rfl⟩ := check_eq_ok h
  exact hR.freeze hcheck

omit hR in
theorem related_replaceChild {parent : NodeId} {index : Nat} {e : Edge} {c : Context}
    (h : ∀ old, c.graph.checkReplace parent index e = .ok old → old ≠ e →
      R c { c with graph := c.graph.setChild parent index old e }) :
    R c (after (replaceChild parent index e) c) := by
  refine related_bind (moves_check _ c) fun old t ht => ?_
  obtain ⟨hcheck, rfl⟩ := check_eq_ok ht
  by_cases ho : old = e
  · -- putting back the edge that is there changes nothing
    subst ho
    simp only [ne_eq, not_true_eq_false, if_false]
    exact refl t
  · simp only [ne_eq, ho, not_false_eq_true, if_true]
    exact related_bind (h old hcheck ho) fun _ _ _ => moves_pure _ _

omit hR in
theorem related_pushChild {parent : NodeId} {e : Edge} {c : Context}
    (h : c.graph.checkPush parent e = .ok () →
      R c { c with graph := c.graph.addChild parent e }) :
    R c (after (pushChild parent e) c) := by
  refine related_bind (moves_check _ c) fun _ t ht => ?_
  obtain ⟨hcheck, rfl⟩ := check_eq_ok ht
  exact h hcheck

/-- Where every push is allowed, so is an integer type with its default value. -/
theorem moves_integerType
    (hpush : ∀ {c : Context} {parent : NodeId} {e : Edge}, c.graph.checkPush parent e = .ok () →
      R c { c with graph := c.graph.addChild parent e })
    (sign : Signedness) (width : UInt16) (span : Span) :
    Moves R (integerType sign width span) := by
  unfold integerType
  dsimp only
  split
  · exact moves_throw (BuildError.node (.invalidIntegerWidth width))
  · refine moves_bind (moves_begin hR _ _) fun type => ?_
    refine moves_bind (moves_create hR _ _ _) fun constant => ?_
    refine moves_bind (moves_create hR _ _ _) fun zero => ?_
    refine moves_bind (fun c => related_pushChild hpush) fun _ => ?_
    exact moves_bind (moves_freeze hR _) fun _ => moves_pure _

variable (hinteger : ∀ sign width span, Moves R (integerType sign width span))

include hinteger

theorem moves_qualifiedType (qualifiers : Qualifiers) (wrapped : FreshType) (span : Span) :
    Moves R (qualifiedType qualifiers wrapped span) := by
  refine moves_bind ?_ fun type => moves_create hR _ _ _
  cases wrapped with
  | leaf shape => exact moves_create hR _ _ _
  | integer sign width => exact hinteger sign width span

end Build

variable (hinteger : ∀ sign width span, Moves R (Build.integerType sign width span))

include hinteger

/-- A blueprint pushes no child, but for the default value that an integer type owns. -/
theorem Blueprint.moves_build (plan : Blueprint) (span : Span) : Moves R (plan.build span) := by
  cases plan with
  | node kind children =>
    exact moves_bind (Build.moves_resolveKind hR kind) fun _ => Build.moves_create hR _ _ _
  | integer sign width => exact hinteger sign width span
  | qualified qualifiers wrapped =>
    exact Build.moves_qualifiedType hR hinteger qualifiers wrapped span
  | typed kind qualifiers wrapped children =>
    refine moves_bind (Build.moves_resolveKind hR kind) fun _ => ?_
    exact moves_bind (Build.moves_qualifiedType hR hinteger _ _ _) fun _ =>
      Build.moves_create hR _ _ _
  | selfReference record =>
    exact moves_bind (Build.moves_create hR _ _ _) fun _ => Build.moves_create hR _ _ _

theorem Creation.moves_run (what : Creation) (span : Span) : Moves R (what.run span) := by
  cases what with
  | begin kind =>
    exact moves_bind (Build.moves_resolveKind hR kind) fun _ => Build.moves_begin hR _ _
  | build plan => exact plan.moves_build hR hinteger span
  | refer declaration => exact moves_bind (Build.moves_check _) fun _ => Build.moves_create hR _ _ _

/-- **What its parts are allowed, a command is allowed**, wherever it starts and even if it
fails. -/
theorem Command.related_run {cmd : Command} {c : Context}
    (hpush : ∀ parent e, cmd = .push parent e → c.graph.checkPush parent e = .ok () →
      R c { c with graph := c.graph.addChild parent e })
    (hreplace : ∀ parent index old e, cmd = .replace parent index e →
      c.graph.checkReplace parent index e = .ok old → old ≠ e →
      R c { c with graph := c.graph.setChild parent index old e }) :
    R c (after cmd.run c) := by
  cases cmd with
  | make what span => exact moves_bind (what.moves_run hR hinteger span) (fun _ => moves_pure _) c
  | intern text => exact moves_bind (Build.moves_intern hR text) (fun _ => moves_pure _) c
  | push parent e =>
    exact related_bind (Build.related_pushChild (hpush parent e rfl)) fun _ _ _ => moves_pure _ _
  | freeze id => exact moves_bind (Build.moves_freeze hR id) (fun _ => moves_pure _) c
  | replace parent index e =>
    exact related_bind (Build.related_replaceChild fun old => hreplace parent index old e rfl)
      fun _ _ _ => moves_pure _ _

end Commands

namespace Command

variable {parent : NodeId} {index : Nat} {old e : Edge} {c : Context}

theorem run_replace_of_ok (h : c.graph.checkReplace parent index e = .ok old) :
    (Command.replace parent index e).run c = .ok (.replaced old)
      { c with graph := if old = e then c.graph else c.graph.setChild parent index old e } := by
  by_cases ho : old = e <;>
    simp [Command.run, Build.replaceChild, Build.check, Build.write, h, ho, bind, EStateM.bind,
      pure, EStateM.pure]

theorem run_replace_of_error {cause : NodeError}
    (h : c.graph.checkReplace parent index e = .error cause) :
    (Command.replace parent index e).run c = .error (.node cause) c := by
  simp [Command.run, Build.replaceChild, Build.check, h, bind, EStateM.bind]

end Command

/-! ## Passes -/

section Passes

variable {σ σ' ε : Type}

theorem Pass.runBelow_succ (offer : Pass σ ε) (depth : Nat) (parent : NodeId) :
    offer.runBelow (depth + 1) parent = PassM.ask (·.read parent) >>= fun node =>
      (List.range node.children.length).foldlM (offer.atSlot (offer.runBelow depth) parent) 0 := rfl

theorem Pass.run_eq_atRoot (offer : Pass σ ε) (depth : Nat) (root : NodeId) :
    offer.run depth root = offer.atRoot (offer.runBelow depth) root := rfl

/-- The question is about ids and edges and about nothing else. -/
def AsksEdges {α : Type} (question : Graph → Except Fault α) : Prop :=
  ∀ g g' : Graph, (∀ id, id ∈ g ↔ id ∈ g') → (∀ id, g.edges id = g'.edges id) →
    question g = question g'

/-- How many slots a node has. -/
def Graph.slotCount (g : Graph) (id : NodeId) : Except Fault Nat :=
  (g.read id).map fun node => node.children.length

theorem asksEdges_slotCount (id : NodeId) : AsksEdges fun g => g.slotCount id := by
  intro g g' hmem hedges
  have hid := hmem id
  have hchildren := hedges id
  rw [Graph.mem_iff_node?, Graph.mem_iff_node?] at hid
  rw [Graph.edges, Graph.edges] at hchildren
  dsimp only
  rw [Graph.slotCount, Graph.slotCount, Graph.read, Graph.read]
  cases hn : g.node? id with
  | none =>
    cases hn' : g'.node? id with
    | none => rfl
    | some node' => simp [hn, hn'] at hid
  | some node =>
    cases hn' : g'.node? id with
    | none => simp [hn, hn'] at hid
    | some node' =>
      have hsame : node.children = node'.children := by simpa [hn, hn'] using hchildren
      simp only [Except.map, hsame]

/-- Below a node a pass needs to know no more of it than how many slots it has. -/
theorem Pass.runBelowBy_slots (replace : NodeId → Nat → Edge → PassM σ ε Nat) (offer : Pass σ ε)
    (depth : Nat) (parent : NodeId) :
    offer.runBelowBy replace (depth + 1) parent =
      PassM.ask (fun g => g.slotCount parent) >>= fun count => (List.range count).foldlM
        (offer.atSlotBy replace (offer.runBelowBy replace depth) parent) 0 := by
  funext s
  rw [runBelowBy]
  simp only [bind, EStateM.bind, PassM.ask, Graph.slotCount]
  cases s.context.graph.read parent <;> rfl

/-- What relates two passes step by step: it holds between the steps that the passes have in common,
but for replacements, and where one step follows another. -/
structure Lifts (P : ∀ {α : Type}, PassM σ ε α → PassM σ' ε α → Prop) : Prop where
  pure : ∀ {α : Type} (a : α), P (pure a) (pure a)
  bind : ∀ {α β : Type} {x : PassM σ ε α} {x' : PassM σ' ε α} {f : α → PassM σ ε β}
    {f' : α → PassM σ' ε β}, P x x' → (∀ a, P (f a) (f' a)) → P (x >>= f) (x' >>= f')
  ask : ∀ {α : Type} {question : Graph → Except Fault α}, AsksEdges question →
    P (PassM.ask question) (PassM.ask question)

variable {P : ∀ {α : Type}, PassM σ ε α → PassM σ' ε α → Prop} (hP : Lifts P)

include hP

theorem lifts_foldlM {α β : Type} {f : β → α → PassM σ ε β} {f' : β → α → PassM σ' ε β}
    (hf : ∀ b a, P (f b a) (f' b a)) (l : List α) : ∀ b, P (l.foldlM f b) (l.foldlM f' b) := by
  induction l with
  | nil => intro b; exact hP.pure b
  | cons a rest ih =>
    intro b
    rw [List.foldlM_cons, List.foldlM_cons]
    exact hP.bind (hf b a) ih

theorem Pass.lifts_atSlotBy {replace : NodeId → Nat → Edge → PassM σ ε Nat}
    {replace' : NodeId → Nat → Edge → PassM σ' ε Nat}
    (hreplace : ∀ parent index e, P (replace parent index e) (replace' parent index e))
    {offer : Pass σ ε} {offer' : Pass σ' ε} (hoffer : ∀ id, P (offer id) (offer' id))
    {below : NodeId → PassM σ ε Nat} {below' : NodeId → PassM σ' ε Nat}
    (hbelow : ∀ id, P (below id) (below' id)) (parent : NodeId) (changed index : Nat) :
    P (offer.atSlotBy replace below parent changed index)
      (offer'.atSlotBy replace' below' parent changed index) := by
  refine hP.bind (hP.ask fun g g' _ hedges => ?_) fun slot => ?_
  · rw [Graph.edge?, hedges, Graph.edge?]
  split
  · rename_i child
    refine hP.bind (hoffer child) fun action => ?_
    cases action with
    | prune => exact hP.pure _
    | descend => exact hP.bind (hbelow child) fun _ => hP.pure _
    | replace new =>
      refine hP.bind (hreplace _ _ _) fun _ => ?_
      cases new with
      | owned child => exact hP.bind (hbelow child) fun _ => hP.pure _
      | ref target => exact hP.pure _
  · exact hP.pure _

theorem Pass.lifts_atRoot {offer : Pass σ ε} {offer' : Pass σ' ε}
    (hoffer : ∀ id, P (offer id) (offer' id)) {below : NodeId → PassM σ ε Nat}
    {below' : NodeId → PassM σ' ε Nat} (hbelow : ∀ id, P (below id) (below' id)) (root : NodeId) :
    P (offer.atRoot below root) (offer'.atRoot below' root) := by
  refine hP.bind (hoffer root) fun action => ?_
  cases action with
  | prune => exact hP.pure _
  | descend => exact hP.bind (hbelow root) fun _ => hP.pure _
  | replace e =>
    cases e with
    | ref target => exact hP.pure _
    | owned new => exact hP.bind (hbelow new) fun _ => hP.pure _

theorem Pass.lifts_runBelowBy {replace : NodeId → Nat → Edge → PassM σ ε Nat}
    {replace' : NodeId → Nat → Edge → PassM σ' ε Nat}
    (hreplace : ∀ parent index e, P (replace parent index e) (replace' parent index e))
    {offer : Pass σ ε} {offer' : Pass σ' ε} (hoffer : ∀ id, P (offer id) (offer' id))
    (depth : Nat) :
    ∀ parent, P (offer.runBelowBy replace depth parent)
      (offer'.runBelowBy replace' depth parent) := by
  induction depth with
  | zero =>
    intro parent
    have hstop : AsksEdges fun _ => (.error .unending : Except Fault Nat) := fun _ _ _ _ => rfl
    exact hP.ask hstop
  | succ depth ih =>
    intro parent
    rw [runBelowBy_slots, runBelowBy_slots]
    refine hP.bind (hP.ask (asksEdges_slotCount parent)) fun count => ?_
    exact lifts_foldlM hP (lifts_atSlotBy hP hreplace hoffer ih parent) _ _

theorem Pass.lifts_runBy (replace : NodeId → Nat → Edge → PassM σ ε Nat)
    (replace' : NodeId → Nat → Edge → PassM σ' ε Nat)
    (hreplace : ∀ parent index e, P (replace parent index e) (replace' parent index e))
    (offer : Pass σ ε) (offer' : Pass σ' ε) (hoffer : ∀ id, P (offer id) (offer' id))
    (depth : Nat) (root : NodeId) :
    P (offer.runBy replace depth root) (offer'.runBy replace' depth root) :=
  lifts_atRoot hP hoffer (lifts_runBelowBy hP hreplace hoffer depth) root

variable (hreplace : ∀ parent index e, P (PassM.replaceChild parent index e)
  (PassM.replaceChild parent index e))

include hreplace

theorem Pass.lifts_atSlot {offer : Pass σ ε} {offer' : Pass σ' ε}
    (hoffer : ∀ id, P (offer id) (offer' id)) {below : NodeId → PassM σ ε Nat}
    {below' : NodeId → PassM σ' ε Nat} (hbelow : ∀ id, P (below id) (below' id)) (parent : NodeId)
    (changed index : Nat) :
    P (offer.atSlot below parent changed index) (offer'.atSlot below' parent changed index) :=
  lifts_atSlotBy hP hreplace hoffer hbelow parent changed index

/-- **What relates the offers of two passes relates the passes**, if it allows replacements. -/
theorem Pass.lifts_run (offer : Pass σ ε) (offer' : Pass σ' ε)
    (hoffer : ∀ id, P (offer id) (offer' id)) (depth : Nat) (root : NodeId) :
    P (offer.run depth root) (offer'.run depth root) :=
  lifts_runBy hP _ _ hreplace offer offer' hoffer depth root

omit hP hreplace

variable {R : PassState σ → PassState σ → Prop} [IsPreorder (PassState σ) R]

theorem moves_ask {α : Type} (question : Graph → Except Fault α) :
    Moves R (PassM.ask (σ := σ) (ε := ε) question) := by
  intro s
  unfold after PassM.ask
  cases question s.context.graph <;> exact refl s

theorem lifts_moves : Lifts fun {α} (x : PassM σ ε α) (_ : PassM σ ε α) => Moves R x :=
  ⟨moves_pure, moves_bind, fun _ => moves_ask _⟩

theorem Pass.moves_runBy {replace : NodeId → Nat → Edge → PassM σ ε Nat}
    (hreplace : ∀ parent index e, Moves R (replace parent index e)) {offer : Pass σ ε}
    (hoffer : ∀ id, Moves R (offer id)) (depth : Nat) (root : NodeId) :
    Moves R (offer.runBy replace depth root) :=
  Pass.lifts_runBy lifts_moves replace replace hreplace offer offer hoffer depth root

/-- **What offers and replacements keep, a pass keeps**, however it ends. -/
theorem Pass.moves_run {offer : Pass σ ε} (hoffer : ∀ id, Moves R (offer id))
    (hreplace : ∀ parent index e, Moves R (PassM.replaceChild (ε := ε) parent index e))
    (depth : Nat) (root : NodeId) : Moves R (offer.run depth root) :=
  Pass.moves_runBy hreplace hoffer depth root

/-- What a relation says about contexts, said about the states of a pass. -/
instance {R : Context → Context → Prop} [IsPreorder Context R] :
    IsPreorder (PassState σ) fun s t => R s.context t.context where
  refl s := refl s.context
  trans _ _ _ h h' := trans_of R h h'

/-- A pass replaces a child in the way of the command that does so. -/
theorem after_replaceChild (parent : NodeId) (index : Nat) (e : Edge) (s : PassState σ) :
    (after (PassM.replaceChild (ε := ε) parent index e) s).context =
      after (Command.replace parent index e).run s.context := by
  unfold after PassM.replaceChild
  cases h : s.context.graph.checkReplace parent index e with
  | error cause => rw [Command.run_replace_of_error h]
  | ok old =>
    rw [Command.run_replace_of_ok h]
    by_cases ho : old = e <;> simp [ho]

end Passes

/-! ## Recorded passes -/

section Recorded

variable {σ τ ε α : Type}

/-- The state of a pass without the second part of its memory. -/
def PassState.forget (s : PassState (σ × τ)) : PassState σ := ⟨s.context, s.memory.1⟩

/-- What a step comes to, without the second part of the memory. -/
def forgetResult : EStateM.Result (PassError ε) (PassState (σ × τ)) α →
    EStateM.Result (PassError ε) (PassState σ) α
  | .ok a s => .ok a s.forget
  | .error cause s => .error cause s.forget

/-- The second step is the first one, but for the second part of its memory. -/
def Extends (x : PassM σ ε α) (x' : PassM (σ × τ) ε α) : Prop :=
  ∀ s, forgetResult (x' s) = x s.forget

theorem Extends.after {x : PassM σ ε α} {x' : PassM (σ × τ) ε α} (h : Extends x x')
    (s : PassState (σ × τ)) : (after x' s).forget = SyntaxGraph.after x s.forget := by
  have hs := h s
  unfold SyntaxGraph.after
  cases hx : x' s <;> rw [hx] at hs <;> rw [← hs] <;> rfl

theorem Extends.run_eq_ok {x : PassM σ ε α} {x' : PassM (σ × τ) ε α} (h : Extends x x')
    {s : PassState (σ × τ)} {t : PassState σ} {a : α} (hx : x s.forget = .ok a t) :
    ∃ t', x' s = .ok a t' ∧ t'.forget = t := by
  have hs := (h s).trans hx
  cases hx' : x' s with
  | error cause u =>
    rw [hx'] at hs
    injection hs
  | ok b u =>
    rw [hx'] at hs
    injection hs with hb hu
    exact ⟨u, hb ▸ rfl, hu⟩

theorem extends_ask (question : Graph → Except Fault α) :
    Extends (PassM.ask (σ := σ) (ε := ε) question) (PassM.ask (σ := σ × τ) question) := by
  intro s
  unfold PassM.ask
  cases h : question s.context.graph <;> simp [PassState.forget, forgetResult, h]

theorem lifts_extends :
    Lifts fun {α} (x : PassM σ ε α) (x' : PassM (σ × τ) ε α) => Extends x x' where
  pure _ _ := rfl
  bind {_ _ x x' f f'} hx hf s := by
    have hs := hx s
    simp only [bind, EStateM.bind]
    cases h : x' s with
    | error cause t => rw [h] at hs; rw [← hs]; rfl
    | ok a t => rw [h] at hs; rw [← hs]; exact hf a t
  ask _ := extends_ask _

theorem extends_replaceChild (parent : NodeId) (index : Nat) (e : Edge) :
    Extends (PassM.replaceChild (σ := σ) (ε := ε) parent index e)
      (PassM.replaceChild (σ := σ × τ) parent index e) := by
  intro s
  unfold PassM.replaceChild
  cases h : s.context.graph.checkReplace parent index e with
  | error cause => simp [PassState.forget, forgetResult, h]
  | ok old => by_cases ho : old = e <;> simp [PassState.forget, forgetResult, h, ho]

/-- What has been done to a context: how it was before each step and after it. -/
abbrev Record := List (Context × Context)

/-- The pass, with a record of what each offer does to the context. -/
def Pass.recorded (offer : Pass σ ε) : Pass (σ × Record) ε := fun id s =>
  let note (t : PassState σ) : PassState (σ × Record) :=
    ⟨t.context, t.memory, s.memory.2 ++ [(s.context, t.context)]⟩
  match offer id s.forget with
  | .ok action t => .ok action (note t)
  | .error cause t => .error cause (note t)

/-- What the offers of a run do to the context, one after the other. -/
def Pass.record (offer : Pass σ ε) (depth : Nat) (root : NodeId) (s : PassState σ) : Record :=
  (after (offer.recorded.run depth root) ⟨s.context, s.memory, []⟩).memory.2

theorem Pass.extends_recorded (offer : Pass σ ε) (id : NodeId) :
    Extends (offer id) (offer.recorded id) := by
  intro s
  unfold recorded
  cases offer id s.forget <;> rfl

end Recorded

end SyntaxGraph
