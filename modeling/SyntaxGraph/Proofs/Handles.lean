import SyntaxGraph.Proofs.Layouts
import SyntaxGraph.Proofs.Monotone
import SyntaxGraph.Proofs.Replacements
import SyntaxGraph.Proofs.Sharing

/-!
# What an id names stays what it is

A program keeps ids while the graph changes under them. Whatever is done in
between, and whether or not it succeeds, an id goes on naming the same node: of
the same kind and from the same place of the source, finished if it was, with as
many children then and no fewer otherwise, and described in the same words. All
this can be read off the changes that a graph is made by, one after the other.

What a slot leads to may change, but nothing changes it in passing. Of all calls
only a replacement writes a slot that is there, and it writes the one that it is
about. So the slots with another edge than before are among those at which a child
was replaced, by a command or by a pass. To know which these are, a pass keeps a
journal of its offers and of its replacements; that changes nothing else.
-/

namespace SyntaxGraph

open Relation

/-! ## What becomes of a node -/

/-- What a node is, and what it has become. -/
structure Node.Becomes (node node' : Node) : Prop where
  kind : node'.kind = node.kind
  span : node'.span = node.span
  length_le : node.children.length ≤ node'.children.length
  /-- A finished node stays finished and keeps the number of its children. -/
  frozen : node.frozen = true → node'.frozen = true ∧ node'.children.length = node.children.length

theorem Node.becomes_self (node : Node) : node.Becomes node :=
  ⟨rfl, rfl, Nat.le_refl _, fun hf => ⟨hf, rfl⟩⟩

theorem Node.Becomes.trans {n₁ n₂ n₃ : Node} (h : n₁.Becomes n₂) (h' : n₂.Becomes n₃) :
    n₁.Becomes n₃ where
  kind := h'.kind.trans h.kind
  span := h'.span.trans h.span
  length_le := h.length_le.trans h'.length_le
  frozen hf := by
    obtain ⟨hf, hlength⟩ := h.frozen hf
    obtain ⟨hf, hlength'⟩ := h'.frozen hf
    exact ⟨hf, hlength'.trans hlength⟩

namespace Graph

variable {g g' : Graph} {id : NodeId} {node : Node}

/-- **No change takes anything away from a node.** -/
theorem becomes_change (h : g.Change g') (hn : g.node? id = some node) :
    ∃ node', g'.node? id = some node' ∧ node.Becomes node' := by
  have hid : id ≠ g.nextId := ne_nextId (mem_iff_node?.mpr ⟨node, hn⟩)
  cases h with
  | begin kind span _ =>
    refine ⟨node, ?_, node.becomes_self⟩
    rw [node?_begin, if_neg hid, hn]
  | push hcheck =>
    rename_i parent e
    obtain ⟨owner, howner, hopen, _⟩ := checkPush_eq_ok.mp hcheck
    have hn' := node?_addChild g parent e id
    rw [hn, Option.map_some] at hn'
    refine ⟨_, hn', rfl, rfl, ?_, fun hf => ⟨hf, ?_⟩⟩
    · dsimp only
      split <;> simp
    · -- only a node under construction is given a child
      refine congrArg List.length (if_neg ?_)
      rintro rfl
      obtain rfl := Option.some.inj (hn.symm.trans howner)
      exact absurd hf (by simp [hopen])
  | freeze hcheck =>
    rename_i other
    have hn' := node?_finish g other id
    rw [hn, Option.map_some] at hn'
    exact ⟨_, hn', rfl, rfl, Nat.le_refl _, fun hf => ⟨by simp [hf], rfl⟩⟩
  | create span _ hcheck =>
    rename_i kind children _
    have hn' := node?_insert g kind children span id
    rw [if_neg hid, hn, Option.map_some] at hn'
    exact ⟨_, hn', rfl, rfl, Nat.le_refl _, fun hf => ⟨hf, rfl⟩⟩
  | replace hcheck hne =>
    rename_i parent index old new
    have hn' := node?_setChild g parent index old new id
    rw [hn, Option.map_some] at hn'
    have hlength : (if id = parent then node.children.set index new else node.children).length =
        node.children.length := by split <;> simp
    exact ⟨_, hn', rfl, rfl, hlength.ge, fun hf => ⟨hf, hlength⟩⟩

theorem becomes_changes (h : ReflTransGen Change g g') (hn : g.node? id = some node) :
    ∃ node', g'.node? id = some node' ∧ node.Becomes node' := by
  induction h with
  | refl => exact ⟨node, hn, node.becomes_self⟩
  | tail _ hs ih =>
    obtain ⟨node₁, hn₁, hbecomes⟩ := ih
    obtain ⟨node₂, hn₂, hbecomes'⟩ := becomes_change hs hn₁
    exact ⟨node₂, hn₂, hbecomes.trans hbecomes'⟩

/-- Two edges that are in one slot of a node at different times lead to nodes of one category. -/
theorem same_category {node' : Node} (h : LaidOut g) (h' : LaidOut g')
    (hn : g.node? id = some node) (hn' : g'.node? id = some node') (hkind : node'.kind = node.kind)
    {index : Nat} {e e' : Edge} (he : node.children[index]? = some e)
    (he' : node'.children[index]? = some e') :
    ∃ target target', g.node? e.target = some target ∧ g'.node? e'.target = some target'
      ∧ target'.category = target.category := by
  obtain ⟨target, htarget, hslot⟩ := h.fits id node.kind (kind?_of_node? hn) index e
    (by rw [edge?_of_node? hn, he])
  obtain ⟨target', htarget', hslot'⟩ := h'.fits id node'.kind (kind?_of_node? hn') index e'
    (by rw [edge?_of_node? hn', he'])
  rw [hkind, hslot, Option.some.injEq] at hslot'
  exact ⟨target, target', htarget, htarget', hslot'.symm⟩

end Graph

/-- A description depends on the kind and on the text of the name in it. -/
theorem Context.describe_eq {c d : Context} {id : NodeId} {node node' : Node}
    (hn : c.graph.node? id = some node) (hn' : d.graph.node? id = some node')
    (hkind : node'.kind = node.kind)
    (htext : ∀ n ∈ node.kind.name?, d.names.text? n = c.names.text? n) :
    d.describe id = c.describe id := by
  have hlookup : ∀ n ∈ node.kind.name?, d.names.lookup n = c.names.lookup n := by
    intro n hname
    rw [Interner.lookup, htext n hname, Interner.lookup]
  rw [describe, describe, Graph.kind?_of_node? hn, Graph.kind?_of_node? hn', hkind]
  show (node.kind.map d.names.lookup).describe = (node.kind.map c.names.lookup).describe
  rw [Kind.map_congr hlookup]

/-! ## The journal of a pass -/

section Journal

variable {σ ε α : Type}

/-- One thing that a pass does: it makes an offer, which finds the context in one state and leaves
it in another, or it replaces the child in a slot. -/
inductive PassEvent where
  | offer (before after : Context)
  | replace (slot : Slot)

/-- What a pass does, in order. -/
abbrev Journal := List PassEvent

/-- The step, with entries in the journal that say whether it succeeds and what it does to the
context. -/
def PassM.logged (entries : (succeeds : Bool) → Context → Context → Journal) (step : PassM σ ε α) :
    PassM (σ × Journal) ε α := fun s =>
  match step s.forget with
  | .ok a t => .ok a ⟨t.context, t.memory, s.memory.2 ++ entries true s.context t.context⟩
  | .error cause t =>
    .error cause ⟨t.context, t.memory, s.memory.2 ++ entries false s.context t.context⟩

/-- The pass, with its offers in the journal, and also those that fail. -/
def Pass.logged (offer : Pass σ ε) : Pass (σ × Journal) ε := fun id =>
  PassM.logged (fun _ before after => [.offer before after]) (offer id)

/-- A replacement, with an entry in the journal if it succeeds. -/
def PassM.loggedReplace (parent : NodeId) (index : Nat) (e : Edge) : PassM (σ × Journal) ε Nat :=
  PassM.logged (fun succeeds _ _ => if succeeds then [.replace (parent, index)] else [])
    (PassM.replaceChild parent index e)

/-- The pass with its journal. -/
def Pass.journal (offer : Pass σ ε) (depth : Nat) (root : NodeId) :
    PassM (σ × Journal) ε PassOutcome :=
  offer.logged.runBy PassM.loggedReplace depth root

/-- What happens in a run of a pass, in order and up to where it ends. -/
def Pass.events (offer : Pass σ ε) (depth : Nat) (root : NodeId) (s : PassState σ) : Journal :=
  (after (offer.journal depth root) ⟨s.context, s.memory, []⟩).memory.2

theorem extends_logged (entries : Bool → Context → Context → Journal) (step : PassM σ ε α) :
    Extends step (step.logged entries) := by
  intro s
  unfold PassM.logged
  cases step s.forget <;> rfl

/-- **The journal changes nothing else.** -/
theorem Pass.extends_journal (offer : Pass σ ε) (depth : Nat) (root : NodeId) :
    Extends (offer.run depth root) (offer.journal depth root) :=
  lifts_runBy lifts_extends _ _ (fun _ _ _ => extends_logged _ _) offer offer.logged
    (fun id => extends_logged _ (offer id)) depth root

/-- What may be said of the events of a pass, and of the context before and after them. -/
structure Pass.Accounts (offer : Pass σ ε) (K : Journal → Context → Context → Prop) : Prop where
  nil : ∀ c, K [] c c
  append : ∀ {first second : Journal} {c₁ c₂ c₃ : Context},
    K first c₁ c₂ → K second c₂ c₃ → K (first ++ second) c₁ c₃
  offer : ∀ id (s : PassState σ),
    K [.offer s.context (after (offer id) s).context] s.context (after (offer id) s).context
  replace : ∀ {c : Context} {parent : NodeId} {index : Nat} {old e : Edge},
    c.graph.checkReplace parent index e = .ok old →
      K [.replace (parent, index)] c (after (Command.replace parent index e).run c)

variable {offer : Pass σ ε} {K : Journal → Context → Context → Prop}

/-- What has been entered into the journal from the one state to the other accounts for the
difference between their contexts. -/
def Accounted (K : Journal → Context → Context → Prop) (s t : PassState (σ × Journal)) : Prop :=
  ∃ events, t.memory.2 = s.memory.2 ++ events ∧ K events s.context t.context

theorem Pass.Accounts.moves_loggedReplace (h : offer.Accounts K) (parent : NodeId) (index : Nat)
    (e : Edge) : Moves (Accounted K) (PassM.loggedReplace (σ := σ) (ε := ε) parent index e) := by
  intro s
  unfold after PassM.loggedReplace PassM.logged
  have hafter := after_replaceChild (ε := ε) parent index e s.forget
  unfold after at hafter
  cases hcheck : s.context.graph.checkReplace parent index e with
  | error cause =>
    have hrun : PassM.replaceChild (ε := ε) parent index e s.forget =
        .error (.node cause) s.forget := by simp [PassM.replaceChild, PassState.forget, hcheck]
    rw [hrun]
    exact ⟨[], rfl, h.nil s.context⟩
  | ok old =>
    obtain ⟨n, t, hrun⟩ : ∃ n t, PassM.replaceChild (ε := ε) parent index e s.forget = .ok n t := by
      by_cases ho : old = e <;> simp [PassM.replaceChild, PassState.forget, hcheck, ho]
    rw [hrun] at hafter ⊢
    refine ⟨[.replace (parent, index)], rfl, ?_⟩
    dsimp only at hafter ⊢
    rw [hafter]
    exact h.replace hcheck

/-- **The journal of a run accounts for what the run does.** -/
theorem Pass.Accounts.events (h : offer.Accounts K) (depth : Nat) (root : NodeId)
    (s : PassState σ) :
    K (offer.events depth root s) s.context (after (offer.run depth root) s).context := by
  have : IsPreorder (PassState (σ × Journal)) (Accounted K) :=
    { refl := fun s => ⟨[], (List.append_nil _).symm, h.nil s.context⟩
      trans := by
        rintro s t u ⟨first, ht, hfirst⟩ ⟨second, hu, hsecond⟩
        exact ⟨first ++ second, by rw [hu, ht, List.append_assoc], h.append hfirst hsecond⟩ }
  have hoffer : ∀ id, Moves (Accounted K) (offer.logged id) := by
    intro id s
    have hs := h.offer id s.forget
    unfold after at hs ⊢
    unfold Pass.logged PassM.logged
    cases hrun : offer id s.forget <;> rw [hrun] at hs <;> exact ⟨_, rfl, hs⟩
  obtain ⟨events, hevents, hK⟩ :=
    Pass.moves_runBy h.moves_loggedReplace hoffer depth root ⟨s.context, s.memory, []⟩
  have hcontext : (after (offer.journal depth root) ⟨s.context, s.memory, []⟩).context =
      (after (offer.run depth root) s).context := congrArg PassState.context
    ((offer.extends_journal depth root).after ⟨s.context, s.memory, []⟩)
  rw [List.nil_append] at hevents
  rw [Pass.events, ← hcontext]
  exact hevents ▸ hK

end Journal

/-! ## Runs that account for their replacements -/

/-- The slot at which the command replaces a child, if it does and is not refused. -/
def Command.replaced? : Command → Context → Option Slot
  | .replace parent index e, c =>
    match (Command.replace parent index e).run c with
    | .ok _ _ => some (parent, index)
    | .error _ _ => none
  | _, _ => none

/-- Calls lead from the one context to the other, and `replaced` holds of the slots at which a child
was replaced on the way: by a command, by a pass, or by calls that a pass makes while it decides.
What the `i`th event of a pass replaced is `within i`, if that event is an offer. -/
inductive Replacing : (Slot → Prop) → Context → Context → Prop where
  | refl (c : Context) : Replacing (fun _ => False) c c
  | command {replaced : Slot → Prop} {a b : Context} (cmd : Command) : Replacing replaced a b →
    Replacing (fun slot => replaced slot ∨ slot ∈ cmd.replaced? b) a (after cmd.run b)
  | pass {replaced : Slot → Prop} {a : Context} {σ ε : Type} {s : PassState σ} (offer : Pass σ ε)
      (depth : Nat) (root : NodeId) (within : Nat → Slot → Prop) :
    Replacing replaced a s.context →
    (∀ i x y, (offer.events depth root s)[i]? = some (.offer x y) → Replacing (within i) x y) →
    Replacing (fun slot => replaced slot ∨ .replace slot ∈ offer.events depth root s
      ∨ ∃ i x y, (offer.events depth root s)[i]? = some (.offer x y) ∧ within i slot)
      a (after (offer.run depth root) s).context

/-- What a pass records of its offers is what they do. -/
theorem Pass.accounts_offers {σ ε : Type} (offer : Pass σ ε) : offer.Accounts fun events _ _ =>
    ∀ x y, PassEvent.offer x y ∈ events →
      ∃ id, ∃ s : PassState σ, s.context = x ∧ (after (offer id) s).context = y where
  nil _ x y h := absurd h (by simp)
  append hfirst hsecond x y h := (List.mem_append.mp h).elim (hfirst x y) (hsecond x y)
  offer id s x y h := by
    obtain ⟨rfl, rfl⟩ : x = s.context ∧ y = (after (offer id) s).context := by simpa using h
    exact ⟨id, s, rfl, rfl⟩
  replace _ x y h := absurd h (by simp)

/-- **Whatever calls do, one can say what they have replaced.** -/
theorem leads_replacing {a b : Context} (h : Leads a b) : ∃ replaced, Replacing replaced a b := by
  induction h with
  | refl c => exact ⟨_, .refl c⟩
  | command cmd _ ih =>
    obtain ⟨replaced, ih⟩ := ih
    exact ⟨_, .command cmd ih⟩
  | pass offer depth root _ _ ih hoffer =>
    rename_i s _ _
    obtain ⟨replaced, ih⟩ := ih
    -- an offer in the journal was made in some state, so something is known of what it replaced
    have hrecorded := offer.accounts_offers.events depth root s
    have hwithin : ∀ i : Nat, ∃ replaced : Slot → Prop, ∀ x y : Context,
        (offer.events depth root s)[i]? = some (.offer x y) → Replacing replaced x y := by
      intro i
      cases hevent : (offer.events depth root s)[i]? with
      | none => exact ⟨fun _ => False, fun x y h => absurd h (by simp)⟩
      | some event =>
        cases event with
        | replace slot => exact ⟨fun _ => False, fun x y h => absurd h (by simp)⟩
        | offer x y =>
          obtain ⟨id, t, rfl, rfl⟩ := hrecorded x y (List.mem_of_getElem? hevent)
          obtain ⟨replaced, hreplacing⟩ := hoffer id t
          refine ⟨replaced, fun x' y' h => ?_⟩
          obtain ⟨rfl, rfl⟩ : t.context = x' ∧ (after (offer id) t).context = y' := by simpa using h
          exact hreplacing
    choose within hwithin using hwithin
    exact ⟨_, .pass offer depth root within ih hwithin⟩

/-! ## Slots that are left alone -/

/-- Changes lead from the one context to the other, and they leave alone all slots that are there
but for some. -/
structure Spares (replaced : Slot → Prop) (c d : Context) : Prop where
  changes : c.Changes d
  kept : ∀ slot e, ¬ replaced slot → c.graph.slot? slot = some e → d.graph.slot? slot = some e

variable {replaced : Slot → Prop}

instance : IsPreorder Context (Spares replaced) where
  refl _ := ⟨.refl, fun _ _ _ he => he⟩
  trans _ _ _ h h' :=
    ⟨h.changes.trans h'.changes, fun slot e hslot he =>
      h'.kept slot e hslot (h.kept slot e hslot he)⟩

theorem Spares.mono {c d : Context} {more : Slot → Prop} (h : Spares replaced c d)
    (hmore : ∀ slot, replaced slot → more slot) : Spares more c d :=
  ⟨h.changes, fun slot e hslot => h.kept slot e fun hr => hslot (hmore slot hr)⟩

theorem allows_spares : Allows (Spares replaced) where
  intern h := ⟨allows_changes.intern h, fun _ _ _ he => he⟩
  begin kind span hroom := by
    refine ⟨allows_changes.begin kind span hroom, fun slot e _ he => ?_⟩
    rwa [Graph.slot?, Graph.edge?, Graph.edges_begin]
  freeze h := by
    refine ⟨allows_changes.freeze h, fun slot e _ he => ?_⟩
    rwa [Graph.slot?, Graph.edge?, Graph.edges_finish]
  create span hroom h := by
    refine ⟨allows_changes.create span hroom h, fun slot e _ he => ?_⟩
    have hslot := Graph.mem_of_edge? he
    rwa [Graph.slot?, Graph.edge?, Graph.edges_insert, if_neg (Graph.ne_nextId hslot)]

/-- A child that is pushed takes a slot that was not there. -/
theorem spares_addChild {c : Context} {parent : NodeId} {e : Edge}
    (hcheck : c.graph.checkPush parent e = .ok ()) :
    Spares replaced c { c with graph := c.graph.addChild parent e } := by
  obtain ⟨node, hn, _⟩ := Graph.checkPush_eq_ok.mp hcheck
  refine ⟨changes_of_graph (.push hcheck), fun slot old _ hold => ?_⟩
  rw [Graph.slot?, Graph.edge?] at hold ⊢
  rw [Graph.edges_addChild (Graph.mem_iff_node?.mpr ⟨node, hn⟩)]
  split
  · rename_i hparent
    rw [hparent] at hold
    rw [List.getElem?_append_left (List.getElem?_eq_some_iff.mp hold).1, hold]
  · exact hold

/-- A replacement writes the one slot that it is about. -/
theorem spares_setChild {c : Context} {parent : NodeId} {index : Nat} {old e : Edge}
    (hcheck : c.graph.checkReplace parent index e = .ok old) (hne : old ≠ e)
    (hslot : replaced (parent, index)) :
    Spares replaced c { c with graph := c.graph.setChild parent index old e } := by
  refine ⟨changes_of_graph (.replace hcheck hne), fun slot e' hkept he' => ?_⟩
  have hother : ¬ (slot.1 = parent ∧ slot.2 = index) := by
    rintro ⟨rfl, rfl⟩
    exact hkept hslot
  rwa [Graph.slot?, Graph.edge?_setChild (Graph.edge?_of_checkReplace hcheck), if_neg hother]

/-- **A command leaves all slots alone but the one at which it replaces a child.** -/
theorem Command.spares_run (cmd : Command) (c : Context)
    (h : ∀ slot ∈ cmd.replaced? c, replaced slot) : Spares replaced c (after cmd.run c) := by
  refine Command.related_run allows_spares
    (Build.moves_integerType allows_spares spares_addChild) (fun _ _ _ => spares_addChild) ?_
  rintro parent index old e rfl hcheck hne
  refine spares_setChild hcheck hne (h (parent, index) ?_)
  rw [Option.mem_def, replaced?, run_replace_of_ok hcheck]

/-- What a pass does leaves the slots alone if its events do. -/
theorem Pass.accounts_spares {σ ε : Type} (offer : Pass σ ε) : offer.Accounts fun events c d =>
    (∀ x y, PassEvent.offer x y ∈ events → Spares replaced x y) →
      (∀ slot, PassEvent.replace slot ∈ events → replaced slot) → Spares replaced c d where
  nil c _ _ := refl c
  append hfirst hsecond hoffers hslots :=
    trans_of (Spares replaced)
      (hfirst (fun x y h => hoffers x y (List.mem_append_left _ h))
        fun slot h => hslots slot (List.mem_append_left _ h))
      (hsecond (fun x y h => hoffers x y (List.mem_append_right _ h))
        fun slot h => hslots slot (List.mem_append_right _ h))
  offer id s hoffers _ := hoffers _ _ (List.mem_singleton.mpr rfl)
  replace {c parent index old e} hcheck _ hslots := by
    refine Command.spares_run _ c fun slot hslot => hslots slot (List.mem_singleton.mpr ?_)
    rw [Option.mem_def, Command.replaced?] at hslot
    split at hslot <;> simp_all

/-- **Calls leave all slots alone but those at which they replace a child.** -/
theorem replacing_spares {a b : Context} (h : Replacing replaced a b) : Spares replaced a b := by
  induction h with
  | refl c => exact refl c
  | command cmd _ ih =>
    exact trans_of (Spares _) (ih.mono fun _ hr => .inl hr)
      (cmd.spares_run _ fun _ hslot => .inr hslot)
  | pass offer depth root within _ _ ih hoffer =>
    refine trans_of (Spares _) (ih.mono fun _ hr => .inl hr) ?_
    refine offer.accounts_spares.events depth root _ (fun x y hevent => ?_) fun slot hevent => ?_
    · obtain ⟨i, hi⟩ := List.mem_iff_getElem?.mp hevent
      exact (hoffer i x y hi).mono fun slot hr => .inr (.inr ⟨i, x, y, hi, hr⟩)
    · exact .inr (.inl hevent)

/-- The pass that puts a new wrapper into the sample record makes it by a command. -/
theorem leads_rewrap (id : NodeId) (s : PassState Unit) :
    Leads s.context (after (rewrap id) s).context := by
  by_cases hid : id = ⟨3⟩
  · have hmake : (after (rewrap id) s).context = after (Command.make
        (.build (.node (.qualifiedType .none) [.ref ⟨0⟩])) .dummy).run s.context := by
      unfold after rewrap
      rw [if_pos hid]
      simp only [bind, EStateM.bind, PassM.within, Command.run, Creation.run, Blueprint.build,
        Build.resolveKind, Kind.name?, Kind.map, pure, EStateM.pure]
      cases Build.create (.qualifiedType .none) [.ref ⟨0⟩] .dummy s.context <;> rfl
    exact hmake ▸ .command _ (.refl _)
  · unfold after rewrap
    rw [if_neg hid]
    exact .refl _

/-! ## Ids -/

/-- **An id that names a node names it for good.** Whatever calls lead to after that, the node is
there and has its kind and its span, no child of it has gone, and once it is finished it stays
finished and has as many children as before. What is in one of its slots then is of the category of
what was there. It is described as before if the table has a text for the name in its kind. And
whichever slots the calls have replaced a child at, those of its slots that hold another edge are
among them. -/
theorem handles_stable {c d : Context} (hc : Reachable c) (hd : Leads c d) {id : NodeId}
    {node : Node} (hn : c.graph.node? id = some node) :
    ∃ node', d.graph.node? id = some node' ∧ node.Becomes node'
      ∧ (∀ (index : Nat) (e e' : Edge), node.children[index]? = some e →
        node'.children[index]? = some e' → ∃ target target',
          c.graph.node? e.target = some target ∧ d.graph.node? e'.target = some target'
            ∧ target'.category = target.category)
      ∧ ((∀ n ∈ node.kind.name?, ∃ text, c.names.text? n = some text) →
        d.describe id = c.describe id)
      ∧ (∃ replaced, Replacing replaced c d)
      ∧ ∀ replaced, Replacing replaced c d → ∀ (index : Nat) (e : Edge),
        node.children[index]? = some e → node'.children[index]? ≠ some e →
          replaced (id, index) := by
  have hchanges := leads_changes hd
  obtain ⟨node', hn', hbecomes⟩ := Graph.becomes_changes (changes_graph hchanges) hn
  have hlaid := Graph.laidOut_reachable hc
  have hlaid' := changes_invariant Graph.laidOut_change (changes_graph hchanges) hlaid
  refine ⟨node', hn', hbecomes, fun index e e' => ?_, fun hnames => ?_, leads_replacing hd, ?_⟩
  -- both edges were checked against the slot, and the kind that it belongs to is the same
  · exact Graph.same_category hlaid hlaid' hn hn' hbecomes.kind
  · refine Context.describe_eq hn hn' hbecomes.kind fun n hname => ?_
    obtain ⟨text, htext⟩ := hnames n hname
    rw [htext, (changes_below hchanges).text? hc.sound_names htext]
  · intro replaced hreplacing index e he hdiffers
    by_contra hslot
    have hkept := (replacing_spares hreplacing).kept (id, index) e hslot
      ((Graph.edge?_of_node? hn index).trans he)
    exact hdiffers ((Graph.edge?_of_node? hn' index).symm.trans hkept)

/-- The field of the sample record has another wrapper after a pass over the record, and is the same
in every other way. However one accounts for the pass, it has replaced a child at that slot. -/
theorem handles_stable_linkedRecord :
    Reachable (runAll linkedRecord .fresh)
      ∧ Leads (runAll linkedRecord .fresh)
        (after (rewrap.run 5 ⟨0⟩) ⟨runAll linkedRecord .fresh, ()⟩).context
      ∧ (after (rewrap.run 5 ⟨0⟩) ⟨runAll linkedRecord .fresh, ()⟩).context.describe ⟨2⟩ =
        (runAll linkedRecord .fresh).describe ⟨2⟩
      ∧ (∃ replaced, Replacing replaced (runAll linkedRecord .fresh)
        (after (rewrap.run 5 ⟨0⟩) ⟨runAll linkedRecord .fresh, ()⟩).context)
      ∧ ∀ replaced, Replacing replaced (runAll linkedRecord .fresh)
        (after (rewrap.run 5 ⟨0⟩) ⟨runAll linkedRecord .fresh, ()⟩).context →
          replaced (⟨2⟩, 0) := by
  have hreach : Reachable (runAll linkedRecord .fresh) := leads_runAll _ (.refl _)
  have hpass : Leads (runAll linkedRecord .fresh)
      (after (rewrap.run 5 ⟨0⟩) ⟨runAll linkedRecord .fresh, ()⟩).context :=
    .pass rewrap 5 ⟨0⟩ (.refl _) leads_rewrap
  have hnode : (runAll linkedRecord .fresh).graph.node? ⟨2⟩ =
      some ⟨.declaration (.field (.ofParts 3 0)), .dummy, [.owned ⟨3⟩], some ⟨0⟩, true⟩ := by
    decide +kernel
  have hafter : (after (rewrap.run 5 ⟨0⟩) ⟨runAll linkedRecord .fresh, ()⟩).context.graph.node? ⟨2⟩
      = some ⟨.declaration (.field (.ofParts 3 0)), .dummy, [.owned ⟨4⟩], some ⟨0⟩, true⟩ := by
    decide +kernel
  obtain ⟨node', hnode', _, _, hdescribe, haccount, hreplaced⟩ :=
    handles_stable hreach hpass hnode
  obtain rfl := Option.some.inj (hafter.symm.trans hnode')
  refine ⟨hreach, hpass, hdescribe ?_, haccount, fun replaced h => ?_⟩
  · intro n hname
    obtain rfl : .ofParts 3 0 = n := Option.some.inj hname
    exact ⟨"next", by decide +kernel⟩
  · exact hreplaced replaced h 0 (.owned ⟨3⟩) rfl (by decide)

end SyntaxGraph
