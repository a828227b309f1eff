import SyntaxGraph.Proofs.Atomicity
import SyntaxGraph.Proofs.Layouts

/-!
# What a refusal says is so

A refusal is an answer about the graph: it names nodes, a slot, a number of
children, and says of them what was found. The four requests share their checks,
and a check does not know on whose behalf it looks. What its answer means is said
here for each reason once, with regard to the request: which of the ids that were
handed over it is about, and what the graph has to be like.

Two reasons cannot be read off the checks. A node that is pushed to is not
finished, so nothing owns it, and a finished node is not above it. A slot with a
child is a slot of the layout, so a replacement never finds too little room.
-/

namespace SyntaxGraph

/-! ## The four requests -/

namespace Request

/-- The node that is there and is to be changed. -/
def subject? : Request → Option NodeId
  | create _ _ _ => none
  | push parent _ => some parent
  | freeze id => some id
  | replace parent _ _ => some parent

/-- The edges that are handed over. -/
def given : Request → List Edge
  | create _ children _ => children
  | push _ e => [e]
  | freeze _ => []
  | replace _ _ e => [e]

/-- The kind of the node that the request is about. -/
def kind? (g : Graph) : Request → Option (Kind Name)
  | create kind _ _ => some kind
  | push parent _ => g.kind? parent
  | freeze id => g.kind? id
  | replace parent _ _ => g.kind? parent

/-- The children that the node will have if the request is granted. -/
def children (g : Graph) : Request → List Edge
  | create _ children _ => children
  | push parent e => g.edges parent ++ [e]
  | freeze id => g.edges id
  | replace parent index e => (g.edges parent).set index e

/-- What the request has to pass. -/
def check (g : Graph) : Request → Except NodeError Unit
  | create kind children _ => g.checkCreate kind children
  | push parent e => g.checkPush parent e
  | freeze id => g.checkFreeze id
  | replace parent index e => do
    let _ ← g.checkReplace parent index e
    return ()

/-- A step that first looks at the graph is refused there, if nothing that follows is refused. -/
theorem question_eq_error {α β : Type} {question : Graph → Except NodeError α}
    {next : α → Build β} {c d : Context} {reason : NodeError}
    (h : (Build.check question >>= next) c = .error (.node reason) d)
    (hnext : ∀ a t, next a t ≠ .error (.node reason) d) : question c.graph = .error reason := by
  rcases run_bind_eq_error.mp h with h | ⟨a, t, _, h⟩
  · obtain ⟨⟨_, heq, hquestion⟩, _⟩ := Build.check_eq_error h
    rw [hquestion, BuildError.node.inj heq]
  · exact absurd h (hnext a t)

theorem insert_ne_refused {kind : Kind Name} {children : List Edge} {span : Span} {c d : Context}
    {reason : NodeError} : Build.insert kind children span c ≠ .error (.node reason) d := by
  by_cases hroom : c.graph.HasRoom 1
  · rw [Build.insert_eq_ok.mpr ⟨hroom, rfl, rfl⟩]
    simp
  · rw [Build.insert_of_full hroom]
    simp

/-- A request is refused by its check and by nothing else: what follows writes, if there is room. -/
theorem check_eq_error {request : Request} {c d : Context} {reason : NodeError}
    (h : request.run c = .error (.node reason) d) : request.check c.graph = .error reason := by
  cases request with
  | create kind children span =>
    exact question_eq_error (run_map_eq_error.mp h) fun _ _ => insert_ne_refused
  | push parent e =>
    exact question_eq_error (run_map_eq_error.mp h) fun _ _ hwrite => by cases hwrite
  | freeze id =>
    exact question_eq_error (run_map_eq_error.mp h) fun _ _ hwrite => by cases hwrite
  | replace parent index e =>
    have hcheck : c.graph.checkReplace parent index e = .error reason := by
      refine question_eq_error (run_map_eq_error.mp h) fun old t hwrite => ?_
      by_cases hold : old = e
      · rw [if_neg (not_not_intro hold)] at hwrite
        cases hwrite
      · rw [if_pos hold] at hwrite
        cases hwrite
    show (c.graph.checkReplace parent index e >>= fun _ => pure ()) = _
    rw [hcheck]
    rfl

end Request

/-- Where there is no slot, there is no room for a child. -/
theorem Layout.acceptsLength_of_slot {l : Layout} {index : Nat} (h : l.slot index = none) :
    l.acceptsLength (index + 1) = false := by
  cases haccepts : l.acceptsLength (index + 1) with
  | false => rfl
  | true =>
    have hslot := Layout.slot_isSome_iff.mpr ⟨index + 1, haccepts, Nat.lt_succ_self index⟩
    rw [h] at hslot
    exact absurd hslot (by simp)

namespace Graph

variable {g : Graph} {request : Request}

/-! ## What a reason means -/

/-- What has to be so for the reason to be given for the refusal of the request. -/
def Justified (g : Graph) (request : Request) : NodeError → Prop
  | .unknownNode id =>
    id ∉ g ∧ (request.subject? = some id ∨ ∃ e ∈ request.given, e.target = id)
  | .childCategory variant index expected found =>
    ∃ kind e node, request.kind? g = some kind ∧ variant = kind.variant
      ∧ kind.layout.slot index = some expected
      ∧ e ∈ request.given ∧ (request.children g)[index]? = some e
      ∧ g.node? e.target = some node ∧ found = node.category ∧ found ≠ expected
  | .arityMismatch variant layout count =>
    (∀ parent index e, request ≠ .replace parent index e)
      ∧ ∃ kind, request.kind? g = some kind ∧ variant = kind.variant ∧ layout = kind.layout
        ∧ count = (request.children g).length ∧ layout.acceptsLength count = false
  | .frozen variant id =>
    request.subject? = some id ∧ (∃ kind, g.kind? id = some kind ∧ variant = kind.variant)
      ∧ g.isFrozen id = true
  | .childNotFrozen child =>
    Edge.owned child ∈ request.given ∧ child ∈ g ∧ g.isFrozen child = false
  | .alreadyOwned child owner =>
    Edge.owned child ∈ request.given ∧ Edge.owned child ∈ g.edges owner
  | .duplicateChild child =>
    ∃ i j : Nat, i < j ∧ request.given[i]? = some (Edge.owned child)
      ∧ request.given[j]? = some (Edge.owned child)
  | .indexOutOfBounds variant index count =>
    ∃ parent e kind, request = .replace parent index e ∧ g.kind? parent = some kind
      ∧ variant = kind.variant ∧ count = (g.edges parent).length ∧ count ≤ index
  | .ownershipCycle parent child =>
    (∃ index, request = .replace parent index (.owned child)) ∧ g.Above child parent
  | .resolutionRegressed parent index =>
    ∃ e old, request = .replace parent index e ∧ g.edge? parent index = some old
      ∧ g.isResolved old.target = .ok true ∧ g.isResolved e.target = .ok false
  | .invalidIntegerWidth _ => False
  | .fault _ => False

/-- If the check refuses, and not over a fault, then for a reason with the property. -/
def RefusedFor {α : Type} (P : NodeError → Prop) (check : Except NodeError α) : Prop :=
  ∀ reason, check = .error reason → (∃ fault, reason = .fault fault) ∨ P reason

section Rules

variable {α β : Type} {P : NodeError → Prop}

theorem refusedFor_ok (a : α) : RefusedFor P (.ok a) := by
  intro reason h
  cases h

theorem refusedFor_error {reason : NodeError} (h : P reason) :
    RefusedFor (α := α) P (.error reason) := by
  intro reason' heq
  rw [← Except.error.inj heq]
  exact .inr h

theorem refusedFor_bind {x : Except NodeError α} {f : α → Except NodeError β}
    (hx : RefusedFor P x) (hf : ∀ a, x = .ok a → RefusedFor P (f a)) : RefusedFor P (x >>= f) := by
  cases h : x with
  | error reason =>
    intro reason' heq
    rw [← Except.error.inj heq]
    exact hx reason h
  | ok a => exact hf a h

theorem refusedFor_refuseIf {refused : Bool} {reason : NodeError} (h : refused = true → P reason) :
    RefusedFor P (refuseIf refused reason) := by
  cases refused with
  | false => exact refusedFor_ok ()
  | true => exact refusedFor_error (h rfl)

theorem refusedFor_reading (answer : Except Fault α) : RefusedFor P (reading answer) := by
  cases answer with
  | ok a => exact refusedFor_ok a
  | error fault =>
    intro reason heq
    exact .inl ⟨fault, (Except.error.inj heq).symm⟩

theorem refusedFor_known {id : NodeId} (h : id ∉ g → P (.unknownNode id)) :
    RefusedFor P (g.known id) := by
  unfold known
  cases hn : g.node? id with
  | some node => exact refusedFor_ok node
  | none => exact refusedFor_error (h (not_mem_iff_node?.mpr hn))

end Rules

/-! ## The checks that the requests share -/

/-- The edge at the position may be too many, lead nowhere or lead to the wrong category. -/
theorem refusedFor_checkSlot {kind : Kind Name} {index : Nat} {e : Edge}
    (hkind : request.kind? g = some kind) (hgiven : e ∈ request.given)
    (hchild : (request.children g)[index]? = some e)
    (hroom : kind.layout.slot index = none →
      g.Justified request (.arityMismatch kind.variant kind.layout (index + 1))) :
    RefusedFor (g.Justified request) (g.checkSlot kind index e.target) := by
  unfold checkSlot
  cases hslot : kind.layout.slot index with
  | none => exact refusedFor_error (hroom hslot)
  | some expected =>
    refine refusedFor_bind (refusedFor_known fun hid => ⟨hid, .inr ⟨e, hgiven, rfl⟩⟩) ?_
    intro node hknown
    refine refusedFor_refuseIf fun hne => ?_
    exact ⟨kind, e, node, hkind, rfl, hslot, hgiven, hchild, known_eq_ok.mp hknown, rfl,
      of_decide_eq_true hne⟩

/-- A node that names an owner is among what the owner owns. -/
theorem refusedFor_checkFree (hown : OwnInv g) {child : NodeId}
    (hgiven : Edge.owned child ∈ request.given) :
    RefusedFor (g.Justified request) (g.checkFree child) := by
  refine refusedFor_bind (refusedFor_reading _) fun node hread => ?_
  have hn : g.node? child = some node := by
    have hask := reading_eq_ok.mp hread
    unfold read at hask
    cases h : g.node? child with
    | none => simp [h] at hask
    | some other =>
      rw [h] at hask
      rw [Except.ok.inj hask]
  refine refusedFor_bind (refusedFor_refuseIf fun hopen => ?_) fun _ _ => ?_
  · refine ⟨hgiven, mem_iff_node?.mpr ⟨node, hn⟩, ?_⟩
    simpa [isFrozen, hn] using hopen
  · cases hparent : node.parent with
    | none => exact refusedFor_ok ()
    | some owner =>
      have howns : g.Owns owner child := by simp [Owns, parent?, hn, hparent]
      exact refusedFor_error ⟨hgiven, (hown.owner_iff owner child).mp howns⟩

theorem refusedFor_checkEdge (hown : OwnInv g) {parent : NodeId} {e : Edge}
    (hgiven : e ∈ request.given)
    (hcycle : ∀ child, e = .owned child → g.Free child → g.Above child parent →
      g.Justified request (.ownershipCycle parent child)) :
    RefusedFor (g.Justified request) (g.checkEdge parent e) := by
  cases e with
  | ref target => exact refusedFor_ok ()
  | owned child =>
    refine refusedFor_bind (refusedFor_checkFree hown hgiven) fun _ hfree => ?_
    refine refusedFor_bind (refusedFor_reading _) fun above hask => ?_
    refine refusedFor_refuseIf fun habove => ?_
    have habove : g.Above child parent :=
      (isAboveWithin_eq_ok _ (reading_eq_ok.mp hask)).mp habove
    exact hcycle child rfl (checkFree_eq_ok.mp hfree) habove

theorem refusedFor_checkOpen {id : NodeId} {node : Node} (hn : g.node? id = some node)
    (hsubject : request.subject? = some id) :
    RefusedFor (g.Justified request) (checkOpen id node) := by
  refine refusedFor_refuseIf fun hfrozen => ?_
  refine ⟨hsubject, ⟨node.kind, kind?_of_node? hn, rfl⟩, ?_⟩
  rw [isFrozen, hn]
  exact hfrozen

/-! ## The requests -/

/-- Nothing owns a node that is not finished, so a free node above it would be the node itself,
which is not free. -/
theorem not_above_open (hown : OwnInv g) {child parent : NodeId} (hfree : g.Free child)
    (hopen : g.isFrozen parent = false) : ¬ g.Above child parent := by
  intro habove
  cases habove with
  | here =>
    rw [hfree.frozen] at hopen
    exact Bool.noConfusion hopen
  | up hparent _ =>
    have hfrozen := hown.frozen _ _ ((hown.owner_iff _ _).mp hparent)
    rw [hfrozen] at hopen
    exact Bool.noConfusion hopen

theorem refusedFor_checkPush (hown : OwnInv g) (parent : NodeId) (e : Edge) :
    RefusedFor (g.Justified (.push parent e)) (g.checkPush parent e) := by
  refine refusedFor_bind (refusedFor_known fun hid => ⟨hid, .inl rfl⟩) fun node hknown => ?_
  have hn : g.node? parent = some node := known_eq_ok.mp hknown
  have hkind : g.kind? parent = some node.kind := kind?_of_node? hn
  have hedges : g.edges parent = node.children := edges_of_node? hn
  refine refusedFor_bind (refusedFor_checkOpen hn rfl) fun _ hcheck => ?_
  have hopen : g.isFrozen parent = false := by
    rw [isFrozen, hn]
    exact checkOpen_eq_ok.mp hcheck
  have hgiven : e ∈ (Request.push parent e).given := List.mem_singleton.mpr rfl
  have hchildren : (Request.push parent e).children g = node.children ++ [e] := by
    rw [Request.children, hedges]
  refine refusedFor_bind (refusedFor_checkSlot hkind hgiven ?_ fun hnone => ?_) fun _ _ => ?_
  · rw [hchildren, List.getElem?_concat_length]
  · -- without a slot for the last child the children are too many
    refine ⟨fun _ _ _ => Request.noConfusion, node.kind, hkind, rfl, rfl, ?_, ?_⟩
    · rw [hchildren, List.length_append, List.length_singleton]
    · exact Layout.acceptsLength_of_slot hnone
  · refine refusedFor_checkEdge hown hgiven fun child _ hfree habove => ?_
    exact absurd habove (not_above_open hown hfree hopen)

theorem refusedFor_checkFreeze (g : Graph) (id : NodeId) :
    RefusedFor (g.Justified (.freeze id)) (g.checkFreeze id) := by
  refine refusedFor_bind (refusedFor_known fun hid => ⟨hid, .inl rfl⟩) fun node hknown => ?_
  have hn : g.node? id = some node := known_eq_ok.mp hknown
  refine refusedFor_bind (refusedFor_checkOpen hn rfl) fun _ _ => ?_
  refine refusedFor_refuseIf fun hcount => ?_
  refine ⟨fun _ _ _ => Request.noConfusion, node.kind, kind?_of_node? hn, rfl, rfl, ?_, ?_⟩
  · rw [Request.children, edges_of_node? hn]
  · simpa using hcount

/-- The list is gone through from left to right; what is left of it comes after what was looked
at. -/
theorem refusedFor_checkChildren (hown : OwnInv g) {kind : Kind Name} {children : List Edge}
    {span : Span} (hcount : kind.layout.acceptsLength children.length = true) (rest : List Edge) :
    ∀ earlier, earlier ++ rest = children →
      RefusedFor (g.Justified (.create kind children span))
        (g.checkChildren kind earlier rest) := by
  induction rest with
  | nil =>
    intro earlier _
    exact refusedFor_ok ()
  | cons e rest ih =>
    intro earlier hchildren
    have hlast : children[earlier.length]? = some e := by simp [← hchildren]
    have hgiven : e ∈ children := List.mem_of_getElem? hlast
    refine refusedFor_bind (refusedFor_checkSlot rfl hgiven hlast fun hnone => ?_) fun _ _ => ?_
    · -- there are as many slots as there may be children
      have hlt : earlier.length < children.length := (List.getElem?_eq_some_iff.mp hlast).1
      have hslot := Layout.slot_isSome_iff.mpr ⟨children.length, hcount, hlt⟩
      rw [hnone] at hslot
      exact absurd hslot (by simp)
    · have hrest := ih (earlier ++ [e]) (by simp [hchildren])
      cases e with
      | ref target => exact hrest
      | owned child =>
        refine refusedFor_bind (refusedFor_checkFree hown hgiven) fun _ _ => ?_
        refine refusedFor_bind (refusedFor_refuseIf fun hmem => ?_) fun _ _ => hrest
        obtain ⟨i, hi⟩ := List.mem_iff_getElem?.mp (of_decide_eq_true hmem)
        have hlt : i < earlier.length := (List.getElem?_eq_some_iff.mp hi).1
        refine ⟨i, earlier.length, hlt, ?_, hlast⟩
        show children[i]? = _
        rw [← hchildren, List.getElem?_append_left hlt, hi]

theorem refusedFor_checkCreate (hown : OwnInv g) (kind : Kind Name) (children : List Edge)
    (span : Span) :
    RefusedFor (g.Justified (.create kind children span)) (g.checkCreate kind children) := by
  refine refusedFor_bind (refusedFor_refuseIf fun hcount => ?_) fun _ hcount => ?_
  · refine ⟨fun _ _ _ => Request.noConfusion, kind, rfl, rfl, rfl, rfl, ?_⟩
    simpa using hcount
  · exact refusedFor_checkChildren hown (checkArity_eq_ok.mp hcount) children [] rfl

theorem refusedFor_checkReplace (hown : OwnInv g) (hlaid : LaidOut g) (parent : NodeId)
    (index : Nat) (e : Edge) :
    RefusedFor (g.Justified (.replace parent index e)) (g.checkReplace parent index e) := by
  refine refusedFor_bind (refusedFor_known fun hid => ⟨hid, .inl rfl⟩) fun node hknown => ?_
  have hn : g.node? parent = some node := known_eq_ok.mp hknown
  have hkind : g.kind? parent = some node.kind := kind?_of_node? hn
  have hedges : g.edges parent = node.children := edges_of_node? hn
  cases hold : node.children[index]? with
  | none =>
    refine refusedFor_error ⟨parent, e, node.kind, rfl, hkind, rfl, by rw [hedges], ?_⟩
    exact List.getElem?_eq_none_iff.mp hold
  | some old =>
    have hedge : g.edge? parent index = some old := by rw [edge?_of_node? hn, hold]
    have hgiven : e ∈ (Request.replace parent index e).given := List.mem_singleton.mpr rfl
    dsimp only
    split
    · exact refusedFor_ok old
    refine refusedFor_bind (refusedFor_checkSlot hkind hgiven ?_ fun hnone => ?_) fun _ _ => ?_
    · have hlt : index < node.children.length := (List.getElem?_eq_some_iff.mp hold).1
      rw [Request.children, hedges, List.getElem?_set_self hlt]
    · -- the child that is there has a slot
      obtain ⟨_, _, hslot⟩ := hlaid.fits parent node.kind hkind index old hedge
      rw [hnone] at hslot
      exact absurd hslot (by simp)
    refine refusedFor_bind (refusedFor_checkEdge hown hgiven ?_) fun _ _ => ?_
    · intro child he _ habove
      subst he
      exact ⟨⟨index, rfl⟩, habove⟩
    refine refusedFor_bind (refusedFor_reading _) fun resolved hask => ?_
    cases resolved with
    | false => exact refusedFor_ok old
    | true =>
      refine refusedFor_bind (refusedFor_reading _) fun later hlater => ?_
      refine refusedFor_bind (refusedFor_refuseIf fun hnot => ?_) fun _ _ => refusedFor_ok old
      refine ⟨e, old, rfl, hedge, reading_eq_ok.mp hask, ?_⟩
      rw [reading_eq_ok.mp hlater]
      simpa using hnot

theorem refusedFor_check (hown : OwnInv g) (hlaid : LaidOut g) (request : Request) :
    RefusedFor (g.Justified request) (request.check g) := by
  cases request with
  | create kind children span => exact refusedFor_checkCreate hown kind children span
  | push parent e => exact refusedFor_checkPush hown parent e
  | freeze id => exact refusedFor_checkFreeze g id
  | replace parent index e =>
    exact refusedFor_bind (refusedFor_checkReplace hown hlaid parent index e) fun _ _ =>
      refusedFor_ok ()

end Graph

/-- **What a refusal says is so.** If a context that a program comes to refuses to make a node, to
push to one, to finish one or to replace a child, then the error states a fact about the graph and
about what was handed over. A push is never refused over a cycle, and a replacement never over the
number of children. The one failure that is no refusal is that of a node for which there is no
room. -/
theorem refusals_justified {c d : Context} (hc : Reachable c) (request : Request)
    {cause : BuildError} (h : request.run c = .error cause d) :
    (∃ reason, cause = .node reason ∧ c.graph.Justified request reason
        ∧ (∀ parent e, request = .push parent e →
          ∀ owner child, reason ≠ .ownershipCycle owner child)
        ∧ ∀ parent index e, request = .replace parent index e →
          ∀ variant layout count, reason ≠ .arityMismatch variant layout count)
      ∨ (∃ kind children span, request = .create kind children span)
        ∧ ¬ c.graph.HasRoom 1 ∧ cause = .full Graph.capacity := by
  have hown := Graph.ownInv_reachable hc
  have hsize := Graph.size_le_capacity hc
  have hending := request.ending_run hown hsize
  have hcheck : ∀ reason, request.run c = .error (.node reason) d →
      request.check c.graph = .error reason := fun _ => Request.check_eq_error
  rw [h] at hending hcheck
  cases hending with
  | stopped hfull =>
    -- a request that makes no node needs no room
    cases request with
    | create kind children span => exact .inr ⟨⟨kind, children, span, rfl⟩, hfull, rfl⟩
    | _ => exact absurd hsize hfull
  | @refused reason hreason =>
    have hjust : c.graph.Justified request reason := by
      rcases Graph.refusedFor_check hown (Graph.laidOut_reachable hc) request reason (hcheck _ rfl)
        with ⟨fault, rfl⟩ | hjust
      · exact absurd rfl (hreason fault)
      · exact hjust
    refine .inl ⟨reason, rfl, hjust, ?_, ?_⟩
    · intro parent e hpush owner child heq
      subst heq
      obtain ⟨⟨index, hreplace⟩, _⟩ := hjust
      rw [hpush] at hreplace
      exact Request.noConfusion hreplace
    · intro parent index e hreplace variant layout count heq
      subst heq
      exact hjust.1 parent index e hreplace

/-- The record cannot come to be what its wrapper wraps, which it is itself above. -/
theorem refusals_justified_linkedRecord :
    let c := runAll linkedRecord .fresh
    let request := Request.replace ⟨3⟩ 0 (.owned ⟨0⟩)
    Reachable c ∧ request.run c = .error (.node (.ownershipCycle ⟨3⟩ ⟨0⟩)) c
      ∧ c.graph.Above ⟨0⟩ ⟨3⟩ := by
  intro c request
  have hc : Reachable c := leads_runAll linkedRecord (.refl _)
  have hcheck : c.graph.checkReplace ⟨3⟩ 0 (.owned ⟨0⟩) = .error (.ownershipCycle ⟨3⟩ ⟨0⟩) := by
    decide +kernel
  have hrun : request.run c = .error (.node (.ownershipCycle ⟨3⟩ ⟨0⟩)) c := by
    simp only [request, Request.run, Build.replaceChild, Build.check, hcheck, bind, EStateM.bind]
  rcases refusals_justified hc request hrun with ⟨reason, hreason, hjust, _⟩ | ⟨_, _, hfull⟩
  · rw [← BuildError.node.inj hreason] at hjust
    exact ⟨hc, hrun, hjust.2⟩
  · exact BuildError.noConfusion hfull

end SyntaxGraph
