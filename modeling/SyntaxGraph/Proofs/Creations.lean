import SyntaxGraph.Proofs.Capacity
import SyntaxGraph.Proofs.Catalog
import SyntaxGraph.Proofs.Depth
import SyntaxGraph.Proofs.IntegerDefaults
import SyntaxGraph.Proofs.Preorder

/-!
# What a creation touches

To make a node may take several steps: its qualified type is made first, and the
type for that, and the default value of that type. Any of the steps may be
refused, and what the steps before it have made stays in the arena.

What is made along the way is a tree of its own (`Plants`). No edge leads out of
it to a node that was there, so if the last step fails the leftovers are in
nobody's way (`Leaves`). Only the last step takes in what was handed over, and the
tree with it: then all that is new hangs from the node that is answered
(`Makes`), and of the nodes that were there no more has changed than the owner of
those that were handed over to be owned.

There is one exception. A record's reference to itself is made of a qualified type
that refers to the record, and if that takes the last place in the arena, it is
left over with its reference.
-/

namespace SyntaxGraph

namespace Graph

variable {g g₁ g' : Graph}

/-! ## What becomes of the nodes that were there -/

/-- Every node of the first graph is in the second one as it was. -/
def StaysIn (g g' : Graph) : Prop := ∀ id node, g.node? id = some node → g'.node? id = some node

theorem staysIn_refl (g : Graph) : g.StaysIn g := fun _ _ hn => hn

theorem StaysIn.mem (h : g.StaysIn g') {id : NodeId} (hid : id ∈ g) : id ∈ g' := by
  obtain ⟨node, hn⟩ := mem_iff_node?.mp hid
  exact mem_iff_node?.mpr ⟨node, h id node hn⟩

theorem StaysIn.nextId_not_mem (h : g.StaysIn g') : g'.nextId ∉ g :=
  fun hid => Graph.nextId_not_mem g' (h.mem hid)

/-- What could be made of the nodes can be made of them still. -/
theorem StaysIn.checkCreate (h : g.StaysIn g') {kind : Kind Name} {children : List Edge}
    (hcheck : g.checkCreate kind children = .ok ()) : g'.checkCreate kind children = .ok () := by
  obtain ⟨hcount, hchildren⟩ := checkCreate_eq_ok.mp hcheck
  refine checkCreate_eq_ok.mpr ⟨hcount, fun index e he => ?_⟩
  obtain ⟨⟨node, hn, hslot⟩, howned⟩ := hchildren index e he
  refine ⟨⟨node, h _ node hn, hslot⟩, fun child hc => ?_⟩
  obtain ⟨hfree, honce⟩ := howned child hc
  obtain ⟨node, hn⟩ := mem_iff_node?.mp hfree.mem
  have hfrozen := hfree.frozen
  have hparent := hfree.unowned
  rw [isFrozen, hn] at hfrozen
  rw [parent?, hn] at hparent
  refine ⟨⟨?_, ?_⟩, honce⟩
  · rw [isFrozen, h child node hn]
    exact hfrozen
  · rw [parent?, h child node hn]
    exact hparent

/-- A new node changes nothing about the old ones unless it is to own some of them. -/
theorem staysIn_insert (h : g.StaysIn g₁) {kind : Kind Name} {children : List Edge} (span : Span)
    (hnone : ∀ id ∈ g, Edge.owned id ∉ children) : g.StaysIn (g₁.insert kind children span) := by
  intro id node hn
  have hid : id ∈ g := mem_iff_node?.mpr ⟨node, hn⟩
  rw [node?_insert, if_neg (ne_nextId (h.mem hid)), h id node hn, Option.map_some,
    if_neg (hnone id hid)]

/-- A node that is begun changes nothing about the old ones. -/
theorem staysIn_begin (g : Graph) (kind : Kind Name) (span : Span) :
    g.StaysIn (g.begin kind span) := by
  intro id node hn
  rw [node?_begin, if_neg (ne_nextId (mem_iff_node?.mpr ⟨node, hn⟩)), hn]

/-! ## What is made and what is left -/

/-- The nodes that the edges own. -/
theorem mem_child? {children : List Edge} {id : NodeId} :
    id ∈ children.filterMap Edge.child? ↔ Edge.owned id ∈ children := by
  simp [List.mem_filterMap]

/-- The node has been made and has taken in what it was to own, and nothing else has been done. -/
structure Makes (g g' : Graph) (taken : List NodeId) (finished : Bool) (root : NodeId) : Prop where
  fresh : root ∉ g
  made : root ∈ g'
  unowned : g'.parent? root = none
  /-- All that is new is owned by the node, near or far, or is the node itself. -/
  tree : ∀ id ∈ g', id ∉ g → g'.Above root id ∧ g'.isFrozen id = finished
  owned : ∀ child ∈ taken, g'.parent? child = some root
  /-- Of a node that was there nothing has changed, but for the owner of what was to be owned. -/
  kept : ∀ id node, g.node? id = some node →
    g'.node? id = some { node with parent := if id ∈ taken then some root else node.parent }

/-- Nodes have been left over, and nothing else has been done. -/
structure Leaves (g g' : Graph) (shared : Option NodeId) : Prop where
  stays : g.StaysIn g'
  /-- No new node owns a node that was there, or refers to one but for the one that is shared. -/
  apart : ∀ id, id ∉ g → ∀ e ∈ g'.edges id, e.target ∈ g → ∃ record ∈ shared, e = .ref record

/-- A tree of new nodes has been added. -/
structure Plants (g g' : Graph) (top : NodeId) : Prop where
  makes : g.Makes g' [] true top
  leaves : g.Leaves g' none

theorem leaves_refl (g : Graph) (shared : Option NodeId) : g.Leaves g shared where
  stays := staysIn_refl g
  apart _ hid _ he := absurd (mem_of_edge he) hid

theorem leaves_begin (g : Graph) (kind : Kind Name) (span : Span) :
    g.Leaves (g.begin kind span) none where
  stays := staysIn_begin g kind span
  apart id hid e he := by
    rw [edges_begin] at he
    exact absurd (mem_of_edge he) hid

theorem leaves_insert {shared : Option NodeId} (h : g.Leaves g₁ shared) {kind : Kind Name}
    {children : List Edge} (span : Span)
    (hshared : ∀ e ∈ children, e.target ∈ g → ∃ record ∈ shared, e = .ref record) :
    g.Leaves (g₁.insert kind children span) shared where
  stays := by
    refine staysIn_insert h.stays span fun id hid hchild => ?_
    obtain ⟨_, _, heq⟩ := hshared _ hchild hid
    exact Edge.noConfusion heq
  apart id hid e he := by
    rw [edges_insert] at he
    split at he
    · exact hshared e he
    · exact h.apart id hid e he

/-- What hangs from a child of the new node hangs from the new node. -/
theorem above_insert {kind : Kind Name} {children : List Edge} (span : Span)
    (hcheck : g.checkCreate kind children = .ok ()) {top id : NodeId}
    (htop : Edge.owned top ∈ children) (habove : g.Above top id) :
    (g.insert kind children span).Above g.nextId id := by
  have hparent := parent?_insert kind span (target_mem_of_checkCreate hcheck)
  have hup : (g.insert kind children span).Above top id := by
    induction habove with
    | here => exact .here _
    | up howns _ ih =>
      -- only a node without an owner is given a new one
      refine .up ?_ ih
      rw [hparent, if_neg, howns]
      intro hchild
      obtain ⟨_, _, _, howned⟩ := fits_of_checkCreate hcheck hchild
      have hfree := (howned _ rfl).1.unowned
      rw [howns] at hfree
      exact absurd hfree (by simp)
  refine above_owner hup ?_
  rw [Owns, hparent, if_pos htop]

/-- **The last step of a creation.** If all that was made before hangs from children of the new
node, then all that is new hangs from it. -/
theorem makes_insert (hstays : g.StaysIn g₁) {kind : Kind Name} {children : List Edge}
    {taken : List NodeId} (span : Span) (hcheck : g₁.checkCreate kind children = .ok ())
    (hnew : ∀ id ∈ g₁, id ∉ g → g₁.isFrozen id = true
      ∧ ∃ top, Edge.owned top ∈ children ∧ g₁.Above top id)
    (htaken : ∀ id ∈ taken, Edge.owned id ∈ children)
    (hold : ∀ id ∈ g, Edge.owned id ∈ children → id ∈ taken) :
    g.Makes (g₁.insert kind children span) taken true g₁.nextId where
  fresh := hstays.nextId_not_mem
  made := mem_insert.mpr (.inr rfl)
  unowned := by rw [parent?, node?_insert, if_pos rfl]; rfl
  tree id hid hidNew := by
    rcases mem_insert.mp hid with hid | rfl
    · obtain ⟨hfrozen, top, htop, habove⟩ := hnew id hid hidNew
      refine ⟨above_insert span hcheck htop habove, ?_⟩
      rw [isFrozen_insert, hfrozen, Bool.or_true]
    · refine ⟨.here _, ?_⟩
      rw [isFrozen_insert, decide_eq_true rfl, Bool.true_or]
  owned child hchild := by
    rw [parent?_insert kind span (target_mem_of_checkCreate hcheck), if_pos (htaken child hchild)]
  kept id node hn := by
    have hid : id ∈ g := mem_iff_node?.mpr ⟨node, hn⟩
    have hiff : Edge.owned id ∈ children ↔ id ∈ taken := ⟨hold id hid, htaken id⟩
    rw [node?_insert, if_neg (ne_nextId (hstays.mem hid)), hstays id node hn, Option.map_some]
    simp only [hiff]

/-- Nothing has to be made before. -/
theorem makes_insert_given {kind : Kind Name} {children : List Edge} (span : Span)
    (hcheck : g.checkCreate kind children = .ok ()) :
    g.Makes (g.insert kind children span) (children.filterMap Edge.child?) true g.nextId :=
  makes_insert (staysIn_refl g) span hcheck (fun _ hid hnot => absurd hid hnot)
    (fun _ h => mem_child?.mp h) fun _ _ h => mem_child?.mpr h

theorem makes_begin (g : Graph) (kind : Kind Name) (span : Span) :
    g.Makes (g.begin kind span) [] false g.nextId := by
  have hroot := (node?_begin g kind span g.nextId).trans (if_pos rfl)
  refine ⟨nextId_not_mem g, mem_iff_node?.mpr ⟨_, hroot⟩, by rw [parent?, hroot]; rfl, ?_, ?_, ?_⟩
  · intro id hid hnot
    obtain ⟨node, hn⟩ := mem_iff_node?.mp hid
    rw [node?_begin, not_mem_iff_node?.mp hnot] at hn
    by_cases h : id = g.nextId
    · subst h
      exact ⟨.here _, by rw [isFrozen, hroot]; rfl⟩
    · rw [if_neg h] at hn
      exact absurd hn (by simp)
  · intro child hchild
    exact absurd hchild (by simp)
  · intro id node hn
    rw [node?_begin, if_neg (ne_nextId (mem_iff_node?.mpr ⟨node, hn⟩)), hn]
    simp

/-! ## Trees of new nodes -/

/-- A node without children. -/
theorem plants_insert_leaf {kind : Kind Name} (span : Span)
    (hcheck : g.checkCreate kind [] = .ok ()) : g.Plants (g.insert kind [] span) g.nextId where
  makes := makes_insert_given span hcheck
  leaves := leaves_insert (leaves_refl g none) span (by simp)

/-- A tree and a node that is to own it, and what is given besides. -/
theorem Plants.makes_insert_cons {top : NodeId} (h : g.Plants g₁ top) {kind : Kind Name}
    {given : List Edge} (span : Span)
    (hcheck : g₁.checkCreate kind (.owned top :: given) = .ok ()) :
    g.Makes (g₁.insert kind (.owned top :: given) span) (given.filterMap Edge.child?) true
      g₁.nextId := by
  refine makes_insert h.leaves.stays span hcheck ?_
    (fun id hid => List.mem_cons_of_mem _ (mem_child?.mp hid)) ?_
  · intro id hid hnot
    obtain ⟨habove, hfrozen⟩ := h.makes.tree id hid hnot
    exact ⟨hfrozen, top, List.mem_cons_self, habove⟩
  · intro id hid hchild
    rcases List.mem_cons.mp hchild with heq | hchild
    · exact absurd (Edge.owned.inj heq ▸ hid) h.makes.fresh
    · exact mem_child?.mpr hchild

/-- A tree and a node that is to own it. -/
theorem Plants.insert {top : NodeId} (h : g.Plants g₁ top) {kind : Kind Name} (span : Span)
    (hcheck : g₁.checkCreate kind [.owned top] = .ok ()) :
    g.Plants (g₁.insert kind [.owned top] span) g₁.nextId where
  makes := h.makes_insert_cons span hcheck
  leaves := by
    refine leaves_insert h.leaves span fun e he htarget => ?_
    obtain rfl := List.mem_singleton.mp he
    exact absurd htarget h.makes.fresh

/-- An integer type, its default value and the type of that. -/
theorem plants_withInteger (g : Graph) (sign : Signedness) (width : UInt16) (span : Span) :
    g.Plants (g.withInteger sign width span) g.nextId := by
  have htype := node?_withInteger_type g sign width span
  have hvalue := node?_withInteger_value g sign width span
  have hconstant := node?_withInteger_constant g sign width span
  have hnew : ∀ index, g.size ≤ index → (⟨index⟩ : NodeId) ∉ g := fun index hle hid =>
    absurd (mem_def.mp hid) (Nat.not_lt.mpr hle)
  have hadded : ∀ id ∈ g.withInteger sign width span, id ∉ g →
      id = g.nextId ∨ id = ⟨g.size + 2⟩ ∨ id = ⟨g.size + 1⟩ := by
    intro id hid hnot
    simpa using (added_withInteger g sign width span id).mp ⟨hid, hnot⟩
  have hvalueUp : (g.withInteger sign width span).Above g.nextId ⟨g.size + 2⟩ :=
    .up (by rw [parent?, hvalue]; rfl) (.here _)
  refine ⟨⟨nextId_not_mem g, mem_iff_node?.mpr ⟨_, htype⟩, by rw [parent?, htype]; rfl, ?_, ?_, ?_⟩,
    ?_, ?_⟩
  · intro id hid hnot
    rcases hadded id hid hnot with rfl | rfl | rfl
    · exact ⟨.here _, by rw [isFrozen, htype]; rfl⟩
    · exact ⟨hvalueUp, by rw [isFrozen, hvalue]; rfl⟩
    · exact ⟨.up (by rw [parent?, hconstant]; rfl) hvalueUp, by rw [isFrozen, hconstant]; rfl⟩
  · intro child hchild
    exact absurd hchild (by simp)
  · intro id node hn
    rw [node?_withInteger_of_mem g sign width span (mem_iff_node?.mpr ⟨node, hn⟩), hn]
    simp
  · intro id node hn
    rw [node?_withInteger_of_mem g sign width span (mem_iff_node?.mpr ⟨node, hn⟩), hn]
  · intro id hid e he htarget
    refine absurd htarget ?_
    rcases hadded id (mem_of_edge he) hid with rfl | rfl | rfl
    · rw [edges_of_node? htype] at he
      rw [List.mem_singleton.mp he]
      exact hnew _ (by omega)
    · rw [edges_of_node? hvalue] at he
      rw [List.mem_singleton.mp he]
      exact hnew _ (by omega)
    · rw [edges_of_node? hconstant] at he
      rw [List.mem_singleton.mp he]
      exact nextId_not_mem g

/-- No node of an integer type leads away from it, as far as it has come. -/
theorem leaves_started {sign : Signedness} {width : UInt16} {span : Span}
    (h : Build.Started g sign width span g') : g.Leaves g' none := by
  have hbegun := g.leaves_begin (.type (.integer sign width)) span
  cases h with
  | none => exact g.leaves_refl none
  | type => exact hbegun
  | shell =>
    refine leaves_insert hbegun span fun e he htarget => ?_
    obtain rfl := List.mem_singleton.mp he
    exact absurd htarget (nextId_not_mem g)

end Graph

/-! ## The steps -/

namespace Build

variable {α β : Type} {c : Context} {made : α → Context → Prop} {left : BuildError → Context → Prop}

/-- If the step answers, then with what is wanted; if it fails, then it leaves what is allowed. -/
def Ends (step : Build α) (c : Context) (made : α → Context → Prop)
    (left : BuildError → Context → Prop) : Prop :=
  match step c with
  | .ok a d => made a d
  | .error cause d => left cause d

theorem ends_of_ok {step : Build α} {a : α} {d : Context} (h : step c = .ok a d)
    (hmade : made a d) : Ends step c made left := by
  rw [Ends, h]
  exact hmade

theorem ends_of_error {step : Build α} {cause : BuildError} {d : Context}
    (h : step c = .error cause d) (hleft : left cause d) : Ends step c made left := by
  rw [Ends, h]
  exact hleft

theorem ends_bind {x : Build α} {f : α → Build β} {made : β → Context → Prop}
    (h : Ends x c (fun a d => Ends (f a) d made left) left) : Ends (x >>= f) c made left := by
  unfold Ends at *
  simp only [bind, EStateM.bind]
  cases hx : x c with
  | error cause d => rwa [hx] at h
  | ok a d =>
    rw [hx] at h
    exact h

theorem Ends.mono {x : Build α} {made' : α → Context → Prop} {left' : BuildError → Context → Prop}
    (h : Ends x c made left) (hmade : ∀ a d, made a d → made' a d)
    (hleft : ∀ cause d, left cause d → left' cause d) : Ends x c made' left' := by
  unfold Ends at *
  cases hx : x c with
  | error cause d =>
    rw [hx] at h
    exact hleft cause d h
  | ok a d =>
    rw [hx] at h
    exact hmade a d h

/-- To name a kind changes the names only, if anything. -/
theorem ends_resolveKind (kind : Kind Label) {made : Kind Name → Context → Prop}
    (hmade : ∀ kind names, made kind { c with names := names }) (hleft : ∀ cause, left cause c) :
    Ends (resolveKind kind) c made left := by
  unfold resolveKind
  cases kind.name? with
  | none => exact hmade _ c.names
  | some label =>
    refine ends_bind ?_
    cases label with
    | name n => exact hmade _ c.names
    | text s =>
      cases hintern : c.names.intern s with
      | error cause =>
        have hrun : intern s c = .error (.names cause) c := by rw [intern, hintern]
        exact ends_of_error hrun (hleft _)
      | ok found =>
        have hrun : intern s c = .ok found.1 { c with names := found.2 } := by rw [intern, hintern]
        exact ends_of_ok hrun (hmade _ found.2)

theorem ends_check {question : Graph → Except NodeError α} (hmade : ∀ a, made a c)
    (hleft : ∀ cause, left cause c) : Ends (check question) c made left := by
  unfold Ends check
  cases question c.graph with
  | error cause => exact hleft _
  | ok a => exact hmade a

theorem ends_begin {kind : Kind Name} {span : Span} {made : NodeId → Context → Prop}
    (hmade : made c.graph.nextId { c with graph := c.graph.begin kind span })
    (hleft : ∀ cause, left cause c) : Ends (begin kind span) c made left := by
  by_cases hroom : c.graph.HasRoom 1
  · exact ends_of_ok (begin_eq_ok.mpr ⟨hroom, rfl, rfl⟩) hmade
  · exact ends_of_error (begin_of_full hroom) (hleft _)

/-- A node is made, or nothing is. -/
theorem ends_create {kind : Kind Name} {children : List Edge} {span : Span}
    {made : NodeId → Context → Prop}
    (hmade : c.graph.checkCreate kind children = .ok () → c.graph.HasRoom 1 →
      made c.graph.nextId { c with graph := c.graph.insert kind children span })
    (hrefused : ∀ reason, c.graph.checkCreate kind children = .error reason →
      left (.node reason) c)
    (hfull : ∀ count, left (.full count) c) : Ends (create kind children span) c made left := by
  cases hcheck : c.graph.checkCreate kind children with
  | error reason => exact ends_of_error (create_of_refused hcheck) (hrefused reason hcheck)
  | ok _ =>
    by_cases hroom : c.graph.HasRoom 1
    · exact ends_of_ok (create_eq_ok.mpr ⟨hcheck, hroom, rfl, rfl⟩) (hmade hcheck hroom)
    · exact ends_of_error (create_of_full hcheck hroom) (hfull _)

/-- A tree is planted, and if not, then what is left over leads nowhere. -/
def Grows (step : Build NodeId) (c : Context) : Prop :=
  Ends step c (fun top d => c.graph.Plants d.graph top) fun _ d => c.graph.Leaves d.graph none

theorem grows_integerType (sign : Signedness) (width : UInt16) (span : Span) (c : Context) :
    Grows (integerType sign width span) c := by
  cases hw : isIntegerWidth width with
  | false => exact ends_of_error (integerType_eq_error hw span c) (Graph.leaves_refl _ none)
  | true =>
    by_cases hroom : c.graph.HasRoom 3
    · exact ends_of_ok (integerType_eq_ok hw span hroom) (Graph.plants_withInteger _ _ _ _)
    · obtain ⟨g, hstarted, _, hrun⟩ := integerType_of_full hw span hroom
      exact ends_of_error hrun (Graph.leaves_started hstarted)

theorem grows_freshType (wrapped : FreshType) (span : Span) (c : Context) :
    Grows (freshType wrapped span) c := by
  cases wrapped with
  | leaf shape =>
    exact ends_create (fun hcheck _ => Graph.plants_insert_leaf span hcheck)
      (fun _ _ => Graph.leaves_refl _ none) fun _ => Graph.leaves_refl _ none
  | integer sign width => exact grows_integerType sign width span c

theorem grows_qualifiedType (qualifiers : Qualifiers) (wrapped : FreshType) (span : Span)
    (c : Context) : Grows (qualifiedType qualifiers wrapped span) c := by
  refine ends_bind ((grows_freshType wrapped span c).mono (fun top d h => ?_) fun _ _ h => h)
  exact ends_create (fun hcheck _ => h.insert span hcheck) (fun _ _ => h.leaves) fun _ => h.leaves

end Build

/-! ## Creations -/

/-- The keyword is made of a qualified type that was made just before, and so it is never
refused. -/
theorem Graph.checkCreate_self {g : Graph} {record : NodeId} {span : Span} :
    (g.insert (.qualifiedType .none) [.ref record] span).checkCreate (.expression (.keyword .self))
      [.owned g.nextId] = .ok () := by
  have htype : (g.insert (.qualifiedType .none) [.ref record] span).node? g.nextId =
      some ⟨.qualifiedType .none, span, [.ref record], none, true⟩ := by
    rw [node?_insert, if_pos rfl]
  refine checkCreate_singleton rfl ⟨_, htype, rfl⟩ fun child hc => ?_
  obtain rfl := Edge.owned.inj hc
  exact ⟨by rw [isFrozen, htype]; rfl, by rw [parent?, htype]; rfl⟩

/-- The qualified type refers to the record, and the keyword owns the qualified type. -/
theorem Graph.makes_self (g : Graph) (record : NodeId) (span : Span) :
    let g₁ := g.insert (.qualifiedType .none) [.ref record] span
    g.Makes (g₁.insert (.expression (.keyword .self)) [.owned g.nextId] span) [] true
      g₁.nextId := by
  intro g₁
  have hstays : g.StaysIn g₁ := staysIn_insert (staysIn_refl g) span (by simp)
  refine makes_insert hstays span checkCreate_self ?_ (by simp) ?_
  · intro id hid hnot
    rcases mem_insert.mp hid with hid | rfl
    · exact absurd hid hnot
    · refine ⟨?_, g.nextId, List.mem_singleton.mpr rfl, .here _⟩
      rw [isFrozen_insert, decide_eq_true rfl, Bool.true_or]
  · intro id hid hchild
    obtain rfl := Edge.owned.inj (List.mem_singleton.mp hchild)
    exact absurd hid (nextId_not_mem g)

/-- The qualified type without the keyword. -/
theorem Graph.leaves_self (g : Graph) (record : NodeId) (span : Span) :
    g.Leaves (g.insert (.qualifiedType .none) [.ref record] span) (some record) := by
  refine leaves_insert (g.leaves_refl _) span fun e he _ => ⟨record, rfl, ?_⟩
  exact List.mem_singleton.mp he

/-- Where there is room for one node, a record's reference to itself gets no further than the type
that refers to the record. -/
theorem Blueprint.selfReference_of_full {c : Context} {record : NodeId} {node : Node} {span : Span}
    (hn : c.graph.node? record = some node) (hcategory : node.category = .type)
    (hroom : c.graph.HasRoom 1) (hfull : ¬ c.graph.HasRoom 2) :
    (selfReference record).build span c = .error (.full (c.graph.size + 1))
      { c with graph := c.graph.insert (.qualifiedType .none) [.ref record] span } := by
  have hfits : c.graph.Fits (.qualifiedType .none) 0 record := ⟨node, hn, by rw [hcategory]; rfl⟩
  have htype : Build.create (.qualifiedType .none) [.ref record] span c = _ :=
    Build.create_eq_ok.mpr
      ⟨Graph.checkCreate_singleton rfl hfits fun _ => Edge.noConfusion, hroom, rfl, rfl⟩
  have hkeyword : Build.create (.expression (.keyword .self)) [.owned c.graph.nextId] span
      { c with graph := c.graph.insert (.qualifiedType .none) [.ref record] span } = _ :=
    Build.create_of_full Graph.checkCreate_self fun h => hfull (Graph.hasRoom_insert.mp h)
  simp only [build, bind, EStateM.bind, htype, hkeyword, Graph.size_insert]

/-- The node that a leftover refers to. A record's reference to itself is left unfinished if there
is room for one node and for no more. -/
def Creation.shared? (g : Graph) : Creation → BuildError → Option NodeId
  | build (.selfReference record), .full _ => if g.HasRoom 1 then some record else none
  | _, _ => none

theorem Blueprint.ends_build (plan : Blueprint) (span : Span) (c : Context) :
    Build.Ends (plan.build span) c
      (fun root d => c.graph.Makes d.graph plan.taken true root)
      fun cause d => c.graph.Leaves d.graph ((Creation.build plan).shared? c.graph cause) := by
  cases plan with
  | node kind children =>
    refine Build.ends_bind (Build.ends_resolveKind kind (fun kind names => ?_) ?_)
    · exact Build.ends_create (fun hcheck _ => Graph.makes_insert_given span hcheck)
        (fun _ _ => Graph.leaves_refl _ none) fun _ => Graph.leaves_refl _ none
    · exact fun _ => Graph.leaves_refl _ none
  | integer sign width =>
    exact (Build.grows_integerType sign width span c).mono (fun _ _ h => h.makes) fun _ _ h => h
  | qualified qualifiers wrapped =>
    exact (Build.grows_qualifiedType qualifiers wrapped span c).mono (fun _ _ h => h.makes)
      fun _ _ h => h
  | typed kind qualifiers wrapped children =>
    refine Build.ends_bind (Build.ends_resolveKind kind (fun kind names => ?_) ?_)
    · refine Build.ends_bind ?_
      refine (Build.grows_qualifiedType qualifiers wrapped span { c with names := names }).mono ?_
        fun _ _ h => h
      intro type d h
      exact Build.ends_create (fun hcheck _ => h.makes_insert_cons span hcheck)
        (fun _ _ => h.leaves) fun _ => h.leaves
    · exact fun _ => Graph.leaves_refl _ none
  | selfReference record =>
    refine Build.ends_bind (Build.ends_create (fun _ hroom => ?_)
      (fun _ _ => Graph.leaves_refl _ _) fun _ => Graph.leaves_refl _ _)
    -- the type has been made; the keyword is not refused, but there may be no place for it
    refine Build.ends_create (fun _ _ => c.graph.makes_self record span) (fun reason hcheck => ?_)
      fun count => ?_
    · exact absurd (Graph.checkCreate_self.symm.trans hcheck) (by simp)
    · rw [Creation.shared?, if_pos hroom]
      exact c.graph.leaves_self record span

/-- What is made is finished. -/
def Creation.finishes : Creation → Bool
  | begin _ => false
  | build _ => true
  | refer _ => true

theorem Creation.ends_run (what : Creation) (span : Span) (c : Context) :
    Build.Ends (what.run span) c
      (fun root d => c.graph.Makes d.graph what.taken what.finishes root)
      fun cause d => c.graph.Leaves d.graph (what.shared? c.graph cause) := by
  cases what with
  | begin kind =>
    refine Build.ends_bind (Build.ends_resolveKind kind (fun kind names => ?_) ?_)
    · exact Build.ends_begin (c.graph.makes_begin kind span) fun _ => Graph.leaves_refl _ none
    · exact fun _ => Graph.leaves_refl _ none
  | build plan => exact plan.ends_build span c
  | refer declaration =>
    refine Build.ends_bind (Build.ends_check (fun type => ?_) fun _ => Graph.leaves_refl _ none)
    refine Build.ends_create (fun hcheck _ => ?_) (fun _ _ => Graph.leaves_refl _ none)
      fun _ => Graph.leaves_refl _ none
    -- both edges are references, so nothing is taken in
    exact Graph.makes_insert_given span hcheck

/-- **A creation touches what it is given and nothing else.** Everything in the catalog is a
creation, and takes in what its table says. If it succeeds, the node that is answered is nobody's,
all other new nodes are in its tree, it owns what was given to be owned, and the nodes that were
there are the same in all other respects. If it fails, they are the same in all respects, and no
node that is left over owns one of them or refers to one, so that whatever could be made of them can
be made of them still. The one exception is a record's reference to itself when there is room for
one of its two nodes: the type that is left over refers to the record. In either case names are
added at most. -/
theorem creations_confined {c : Context} (hc : Reachable c) {what : Creation} {ids : List NodeId}
    (htakes : what.Takes ids) (span : Span) :
    what.taken = ids
      ∧ (∀ root d, what.run span c = .ok root d →
        c.graph.Makes d.graph ids what.finishes root
          ∧ ∀ id ∈ d.graph, id ∉ c.graph → id ∈ d.graph.preorder root)
      ∧ (∀ cause d, what.run span c = .error cause d →
        c.graph.Leaves d.graph (what.shared? c.graph cause)
          ∧ ∀ kind children, c.graph.checkCreate kind children = .ok () →
            d.graph.checkCreate kind children = .ok ())
      ∧ c.names.Below (after (what.run span) c).names := by
  have hends := what.ends_run span c
  rw [htakes.taken_eq] at hends
  refine ⟨htakes.taken_eq, fun root d hrun => ?_, fun cause d hrun => ?_, ?_⟩
  · rw [Build.Ends, hrun] at hends
    have hd : Reachable d := by
      have hmade : (Command.make what span).run c = .ok (.made root) d :=
        run_bind_eq_ok.mpr ⟨root, d, hrun, rfl⟩
      have hleads := Leads.command (.make what span) hc
      rwa [after, hmade] at hleads
    refine ⟨hends, fun id hid hnot => ?_⟩
    exact ((Graph.ownInv_reachable hd).mem_preorder hends.made).mpr (hends.tree id hid hnot).1
  · rw [Build.Ends, hrun] at hends
    exact ⟨hends, fun _ _ => hends.stays.checkCreate⟩
  · have hinteger : ∀ sign width span, Moves Context.Changes (Build.integerType sign width span) :=
      Build.moves_integerType allows_changes fun h => changes_of_graph (.push h)
    exact changes_below (what.moves_run allows_changes hinteger span c)

/-- A conjunction of the two sample trees takes both of them in. A conjunction of a tree with itself
is refused after the type of the result has been made, which is left over. -/
theorem creations_confined_twoTrees :
    let c := runAll twoTrees .fresh
    let both := Creation.build (.logicalAnd ⟨4⟩ ⟨9⟩)
    let twice := Creation.build (.logicalAnd ⟨4⟩ ⟨4⟩)
    Reachable c ∧ both.Takes [⟨4⟩, ⟨9⟩] ∧ twice.Takes [⟨4⟩, ⟨4⟩]
      ∧ (∃ d, both.run .dummy c = .ok ⟨12⟩ d
        ∧ c.graph.Makes d.graph [⟨4⟩, ⟨9⟩] true ⟨12⟩ ∧ d.graph.size = 13
        ∧ d.graph.ownedChildren ⟨12⟩ = [⟨11⟩, ⟨4⟩, ⟨9⟩])
      ∧ ∃ d, twice.run .dummy c = .error (.node (.duplicateChild ⟨4⟩)) d
        ∧ c.graph.Leaves d.graph none ∧ d.graph.size = 12 := by
  intro c both twice
  have hc : Reachable c := leads_runAll twoTrees (.refl _)
  have hbothTakes : both.Takes [⟨4⟩, ⟨9⟩] := .expression (.logicalAnd ⟨4⟩ ⟨9⟩)
  have htwiceTakes : twice.Takes [⟨4⟩, ⟨4⟩] := .expression (.logicalAnd ⟨4⟩ ⟨4⟩)
  have hboth : (match both.run .dummy c with
      | .ok root d => some (root, d.graph.size, d.graph.ownedChildren ⟨12⟩)
      | .error _ _ => none) = some (⟨12⟩, 13, [⟨11⟩, ⟨4⟩, ⟨9⟩]) := by decide +kernel
  have htwice : (match twice.run .dummy c with
      | .ok _ _ => none
      | .error cause d => some (cause, d.graph.size)) =
        some (.node (.duplicateChild ⟨4⟩), 12) := by decide +kernel
  obtain ⟨_, hmade, _, _⟩ := creations_confined hc hbothTakes .dummy
  obtain ⟨_, _, hleft, _⟩ := creations_confined hc htwiceTakes .dummy
  refine ⟨hc, hbothTakes, htwiceTakes, ?_, ?_⟩
  · cases hrun : both.run .dummy c with
    | error cause d => simp [hrun] at hboth
    | ok root d =>
      simp only [hrun, Option.some.injEq, Prod.mk.injEq] at hboth
      obtain ⟨rfl, hsize, hchildren⟩ := hboth
      exact ⟨d, rfl, (hmade _ d hrun).1, hsize, hchildren⟩
  · cases hrun : twice.run .dummy c with
    | ok root d => simp [hrun] at htwice
    | error cause d =>
      simp only [hrun, Option.some.injEq, Prod.mk.injEq] at htwice
      obtain ⟨rfl, hsize⟩ := htwice
      exact ⟨d, rfl, (hleft _ d hrun).1, hsize⟩

/-- A record that has been begun. -/
def begunRecord : List Command := [.make (.begin (.type .struct)) .dummy]

/-- What is left over may refer to a node that was there: a record's reference to itself is made of
two nodes, and there may be room for the first only. -/
theorem exists_leftover_reference :
    ¬ ∀ c, Reachable c → ∀ (what : Creation) ids, what.Takes ids → ∀ span cause d,
      what.run span c = .error cause d → c.graph.Leaves d.graph none := by
  intro h
  have hbegun : (runAll begunRecord .fresh).graph.node? ⟨0⟩ =
      some ⟨.type .struct, .dummy, [], none, false⟩ := by decide +kernel
  -- a crowd comes between the record and its reference, and leaves one place
  have hroom : (runAll begunRecord .fresh).graph.HasRoom (Graph.capacity - 2) := by decide +kernel
  obtain ⟨c, hleads, hsize⟩ := exists_crowd hroom
  have hc : Reachable c := (leads_runAll begunRecord (.refl _)).trans hleads
  -- whatever has become of the record, it is of the kind that it was
  obtain ⟨node, hn, hbecomes⟩ :=
    Graph.becomes_changes (changes_graph (leads_changes hleads)) hbegun
  have hcategory : node.category = .type := by rw [Node.category, hbecomes.kind]; rfl
  have hstart : (runAll begunRecord .fresh).graph.size = 1 := by decide +kernel
  have hcapacity : Graph.capacity = 4294967295 := rfl
  have hone : c.graph.HasRoom 1 := by
    rw [Graph.HasRoom]
    omega
  have htwo : ¬ c.graph.HasRoom 2 := by
    rw [Graph.HasRoom]
    omega
  have hrun : (Creation.build (.selfReference ⟨0⟩)).run .dummy c = _ :=
    Blueprint.selfReference_of_full hn hcategory hone htwo
  have hleaves := h c hc (.build (.selfReference ⟨0⟩)) [] (.expression (.selfReference ⟨0⟩)) .dummy
    _ _ hrun
  obtain ⟨_, hnone, _⟩ := hleaves.apart c.graph.nextId (Graph.nextId_not_mem _) (.ref ⟨0⟩)
    (by rw [Graph.edges_insert, if_pos rfl]; exact List.mem_singleton.mpr rfl)
    (Graph.mem_iff_node?.mpr ⟨node, hn⟩)
  exact absurd hnone (by simp)

end SyntaxGraph
