import SyntaxGraph.Blueprint.Basic
import SyntaxGraph.Equality
import SyntaxGraph.Outline
import SyntaxGraph.Walk
import SyntaxGraph.Proofs.FirstVisits
import SyntaxGraph.Proofs.ValueTypes

/-!
# Graphs that differ in their names

Two graphs are alike if they have the same shape, node by node, and differ in
nothing but the names in the kinds and the places of the source. Which names and
which places may stand for each other is left open.

Nothing that is done with a graph depends on more than that. A check asks for
categories, layouts and edges; a walk follows edges; and where kinds are compared
it is enough that different names never stand for the same one (`OneToOne`). So
alike graphs give the same answers, refuse the same requests for the same
reasons, and what is written to both leaves them alike.
-/

namespace SyntaxGraph

/-! ## Kinds -/

namespace Kind

variable {ν μ κ : Type}

/-- What a kind says whatever its name is. -/
structure SameForm (k : Kind ν) (k' : Kind μ) : Prop where
  layout : k.layout = k'.layout
  variant : k.variant = k'.variant
  category : k.category = k'.category
  isPlaceholder : k.isPlaceholder = k'.isPlaceholder
  isSelfReference : k.isSelfReference = k'.isSelfReference
  producesValue : k.producesValue = k'.producesValue
  forwards? : k.forwards? = k'.forwards?

theorem sameForm_map (k : Kind ν) (f : ν → μ) : SameForm (k.map f) k := by
  cases k with
  | type shape =>
    cases shape with
    | integer sign width => cases sign <;> exact ⟨rfl, rfl, rfl, rfl, rfl, rfl, rfl⟩
    | _ => exact ⟨rfl, rfl, rfl, rfl, rfl, rfl, rfl⟩
  | literal value => cases value <;> exact ⟨rfl, rfl, rfl, rfl, rfl, rfl, rfl⟩
  | expression shape =>
    cases shape with
    | keyword word => cases word <;> exact ⟨rfl, rfl, rfl, rfl, rfl, rfl, rfl⟩
    | _ => exact ⟨rfl, rfl, rfl, rfl, rfl, rfl, rfl⟩
  | declaration what => cases what <;> exact ⟨rfl, rfl, rfl, rfl, rfl, rfl, rfl⟩
  | _ => exact ⟨rfl, rfl, rfl, rfl, rfl, rfl, rfl⟩

theorem name?_map (k : Kind ν) (f : ν → μ) : (k.map f).name? = k.name?.map f := by
  cases k with
  | type shape => cases shape <;> rfl
  | literal value => cases value <;> rfl
  | expression shape => cases shape <;> rfl
  | declaration what => cases what <;> rfl
  | _ => rfl

theorem map_map (k : Kind ν) (f : ν → μ) (f' : μ → κ) : (k.map f).map f' = k.map (f' ∘ f) := by
  cases k with
  | type shape => cases shape <;> rfl
  | literal value => cases value <;> rfl
  | expression shape => cases shape <;> rfl
  | declaration what =>
    cases what with
    | tupleElement id => cases id <;> rfl
    | _ => rfl
  | _ => rfl

/-- Only what becomes of the one name counts. -/
theorem map_congr {k : Kind ν} {f f' : ν → μ} (h : ∀ n ∈ k.name?, f n = f' n) :
    k.map f = k.map f' := by
  cases k with
  | type shape =>
    cases shape with
    | name id => exact congrArg (fun n => Kind.type (.name n)) (h id rfl)
    | _ => rfl
  | literal value =>
    cases value with
    | string text => exact congrArg (fun n => Kind.literal (.string n)) (h text rfl)
    | _ => rfl
  | expression shape =>
    cases shape with
    | name id => exact congrArg (fun n => Kind.expression (.name n)) (h id rfl)
    | _ => rfl
  | declaration what =>
    cases what with
    | parameter id mode => exact congrArg (fun n => Kind.declaration (.parameter n mode)) (h id rfl)
    | globalVariable id linkage =>
      exact congrArg (fun n => Kind.declaration (.globalVariable n linkage)) (h id rfl)
    | field id => exact congrArg (fun n => Kind.declaration (.field n)) (h id rfl)
    | localVariable id => exact congrArg (fun n => Kind.declaration (.localVariable n)) (h id rfl)
    | constant id => exact congrArg (fun n => Kind.declaration (.constant n)) (h id rfl)
    | type id => exact congrArg (fun n => Kind.declaration (.type n)) (h id rfl)
    | tupleElement id =>
      cases id with
      | none => rfl
      | some id => exact congrArg (fun n => Kind.declaration (.tupleElement (some n))) (h id rfl)
  | _ => rfl

theorem map_id (k : Kind ν) : k.map id = k := by
  cases k with
  | type shape => cases shape <;> rfl
  | literal value => cases value <;> rfl
  | expression shape => cases shape <;> rfl
  | declaration what =>
    cases what with
    | tupleElement id => cases id <;> rfl
    | _ => rfl
  | _ => rfl

/-- The kinds are the same but for their names, and those stand for each other: both kinds come
from one that has the two names in one place. -/
def Like (ρ : ν → μ → Prop) (k : Kind ν) (k' : Kind μ) : Prop :=
  ∃ both : Kind (ν × μ), k = both.map Prod.fst ∧ k' = both.map Prod.snd
    ∧ ∀ n ∈ both.name?, ρ n.1 n.2

variable {ρ : ν → μ → Prop} {k : Kind ν} {k' : Kind μ}

theorem Like.sameForm (h : Like ρ k k') : SameForm k k' := by
  obtain ⟨both, rfl, rfl, _⟩ := h
  have hfst := sameForm_map both Prod.fst
  have hsnd := sameForm_map both Prod.snd
  exact ⟨hfst.layout.trans hsnd.layout.symm, hfst.variant.trans hsnd.variant.symm,
    hfst.category.trans hsnd.category.symm, hfst.isPlaceholder.trans hsnd.isPlaceholder.symm,
    hfst.isSelfReference.trans hsnd.isSelfReference.symm,
    hfst.producesValue.trans hsnd.producesValue.symm, hfst.forwards?.trans hsnd.forwards?.symm⟩

theorem Like.name? (h : Like ρ k k') : Option.Rel ρ k.name? k'.name? := by
  obtain ⟨both, rfl, rfl, hρ⟩ := h
  rw [name?_map, name?_map]
  cases hn : both.name? with
  | none => exact .none
  | some n => exact .some (hρ n hn)

theorem Like.mono {ρ' : ν → μ → Prop} (h : Like ρ k k') (hρ : ∀ n n', ρ n n' → ρ' n n') :
    Like ρ' k k' := by
  obtain ⟨both, hk, hk', hboth⟩ := h
  exact ⟨both, hk, hk', fun n hn => hρ _ _ (hboth n hn)⟩

/-- Where names that stand for each other become the same, so do the kinds. -/
theorem Like.map_eq (h : Like ρ k k') {f : ν → κ} {f' : μ → κ} (hf : ∀ n n', ρ n n' → f n = f' n') :
    k.map f = k'.map f' := by
  obtain ⟨both, rfl, rfl, hboth⟩ := h
  rw [map_map, map_map]
  exact map_congr fun n hn => hf _ _ (hboth n hn)

theorem like_map (k : Kind κ) (f : κ → ν) (f' : κ → μ) (h : ∀ n ∈ k.name?, ρ (f n) (f' n)) :
    Like ρ (k.map f) (k.map f') := by
  refine ⟨k.map fun n => (f n, f' n), ?_, ?_, fun p hp => ?_⟩
  · rw [map_map]
    rfl
  · rw [map_map]
    rfl
  · rw [name?_map] at hp
    obtain ⟨n, hn, rfl⟩ := Option.map_eq_some_iff.mp hp
    exact h n hn

end Kind

/-- Different names never stand for the same one. -/
def OneToOne {ν : Type} (ρ : ν → ν → Prop) : Prop :=
  ∀ {a b a' b'}, ρ a a' → ρ b b' → (a = b ↔ a' = b')

namespace Kind

variable {ν : Type} {ρ : ν → ν → Prop} {a b a' b' : Kind ν}

theorem Like.swap (h : Like ρ a a') : Like (fun n n' => ρ n' n) a' a := by
  obtain ⟨both, rfl, rfl, hboth⟩ := h
  exact like_map both Prod.snd Prod.fst hboth

theorem Like.eq_of_eq (hρ : OneToOne ρ) (ha : Like ρ a a') (hb : Like ρ b b') (hab : a = b) :
    a' = b' := by
  obtain ⟨v, rfl, rfl, hv⟩ := ha
  obtain ⟨w, rfl, rfl, hw⟩ := hb
  have hname : v.name?.map Prod.fst = w.name?.map Prod.fst := by
    rw [← name?_map, ← name?_map, hab]
  cases hvn : v.name? with
  | none =>
    have hwn : w.name? = none := Option.map_eq_none_iff.mp (hname.symm.trans (by rw [hvn]; rfl))
    calc v.map Prod.snd = v.map Prod.fst := map_congr (by simp [hvn])
      _ = w.map Prod.fst := hab
      _ = w.map Prod.snd := map_congr (by simp [hwn])
  | some n =>
    obtain ⟨m, hwn, hmn⟩ : ∃ m, w.name? = some m ∧ m.1 = n.1 :=
      Option.map_eq_some_iff.mp (hname.symm.trans (by rw [hvn]; rfl))
    have hsame : n.2 = m.2 := (hρ (hv n hvn) (hw m hwn)).mp hmn.symm
    calc v.map Prod.snd = (v.map Prod.fst).map fun _ => n.2 := by
          rw [map_map]
          exact map_congr (by simp [hvn])
      _ = (w.map Prod.fst).map fun _ => m.2 := by rw [hab, hsame]
      _ = w.map Prod.snd := by
          rw [map_map]
          exact map_congr (by simp [hwn])

/-- Kinds are equal exactly if what stands for them is. -/
theorem Like.eq_iff (hρ : OneToOne ρ) (ha : Like ρ a a') (hb : Like ρ b b') : a = b ↔ a' = b' := by
  have hρ' : OneToOne fun n n' => ρ n' n := fun h h' => (hρ h h').symm
  exact ⟨ha.eq_of_eq hρ hb, ha.swap.eq_of_eq hρ' hb.swap⟩

theorem like_self (k : Kind ν) (h : ∀ n ∈ k.name?, ρ n n) : Like ρ k k := by
  have hlike : Like ρ (k.map id) (k.map id) := like_map k id id h
  rwa [map_id] at hlike

/-- A kind without a name is like itself. -/
theorem like_nameless (h : a.name? = none) : Like ρ a a := by
  refine a.like_self fun n hn => ?_
  rw [h] at hn
  exact absurd hn (by simp)

/-- Where names stand for themselves only, so do kinds. -/
theorem Like.eq (h : Like Eq a a') : a = a' := by
  obtain ⟨both, rfl, rfl, hboth⟩ := h
  exact map_congr hboth

end Kind

/-! ## Answers -/

/-- Both answers are refusals, for the same reason, or what they say stands for each other. -/
inductive Agree {ε α β : Type} (R : α → β → Prop) : Except ε α → Except ε β → Prop where
  | ok {a : α} {b : β} : R a b → Agree R (.ok a) (.ok b)
  | error (e : ε) : Agree R (.error e) (.error e)

section Agree

variable {ε α β α' β' : Type} {R : α → β → Prop} {R' : α' → β' → Prop}

theorem Agree.imp {R' : α → β → Prop} {x : Except ε α} {y : Except ε β} (h : Agree R x y)
    (hR : ∀ a b, R a b → R' a b) : Agree R' x y := by
  cases h with
  | ok hab => exact .ok (hR _ _ hab)
  | error e => exact .error e

theorem agree_bind {x : Except ε α} {y : Except ε β} {f : α → Except ε α'} {f' : β → Except ε β'}
    (h : Agree R x y) (hf : ∀ a b, R a b → Agree R' (f a) (f' b)) :
    Agree R' (x >>= f) (y >>= f') := by
  cases h with
  | ok hab => exact hf _ _ hab
  | error e => exact .error e

theorem agree_map {x : Except ε α} {y : Except ε β} {f : α → α'} {f' : β → β'} (h : Agree R x y)
    (hf : ∀ a b, R a b → R' (f a) (f' b)) : Agree R' (x.map f) (y.map f') := by
  cases h with
  | ok hab => exact .ok (hf _ _ hab)
  | error e => exact .error e

theorem agree_foldlM {ι : Type} {f : α → ι → Except ε α} {f' : β → ι → Except ε β} (l : List ι)
    (hf : ∀ i ∈ l, ∀ a b, R a b → Agree R (f a i) (f' b i)) : ∀ {a b}, R a b →
      Agree R (l.foldlM f a) (l.foldlM f' b) := by
  induction l with
  | nil => exact fun hab => .ok hab
  | cons i rest ih =>
    intro a b hab
    obtain ⟨hi, hrest⟩ := List.forall_mem_cons.mp hf
    rw [List.foldlM_cons, List.foldlM_cons]
    exact agree_bind (hi a b hab) fun _ _ hab' => ih hrest hab'

theorem agree_reading {x : Except Fault α} {y : Except Fault β} (h : Agree R x y) :
    Agree R (Graph.reading x) (Graph.reading y) := by
  cases h with
  | ok hab => exact .ok hab
  | error e => exact .error _

theorem agree_eq_iff {x y : Except ε α} : Agree Eq x y ↔ x = y := by
  constructor
  · intro h
    cases h with
    | ok hab => rw [hab]
    | error e => rfl
  · rintro rfl
    cases x with
    | ok a => exact .ok rfl
    | error e => exact .error e

end Agree

/-! ## Graphs -/

/-- The shapes are the same but for their names, and those stand for each other. -/
def TypeShape.Like (ρ : Name → Name → Prop) (shape shape' : TypeShape Name) : Prop :=
  Kind.Like ρ (.type shape) (.type shape')

theorem Kind.Like.type? {ρ : Name → Name → Prop} {k k' : Kind Name} (h : Kind.Like ρ k k') :
    Option.Rel (TypeShape.Like ρ) k.type? k'.type? := by
  obtain ⟨both, rfl, rfl, hboth⟩ := h
  cases both with
  | type shape => exact .some ⟨.type shape, rfl, rfl, hboth⟩
  | _ => exact .none

/-- The nodes are the same but for the name in the kind and the place of the source. -/
structure Node.Like (ρ : Name → Name → Prop) (S : Span → Span → Prop) (n n' : Node) : Prop where
  kind : Kind.Like ρ n.kind n'.kind
  span : S n.span n'.span
  children : n.children = n'.children
  parent : n.parent = n'.parent
  frozen : n.frozen = n'.frozen

/-- The graphs have the same nodes but for names and places. -/
def Graph.Like (ρ : Name → Name → Prop) (S : Span → Span → Prop) (g g' : Graph) : Prop :=
  ∀ id, Option.Rel (Node.Like ρ S) (g.node? id) (g'.node? id)

variable {ρ : Name → Name → Prop} {S : Span → Span → Prop}

namespace Node.Like

variable {n n' : Node} (h : Node.Like ρ S n n')

include h

theorem category : n.category = n'.category := h.kind.sameForm.category

theorem targets : n.targets = n'.targets := by rw [Node.targets, h.children, Node.targets]

theorem ownedChildren : n.ownedChildren = n'.ownedChildren := by
  rw [Node.ownedChildren, h.children, Node.ownedChildren]

theorem target? (index : Nat) : n.target? index = n'.target? index := by
  rw [Node.target?, h.children, Node.target?]

end Node.Like

namespace Graph

variable {g g' : Graph}

theorem like_empty : Like ρ S empty empty := fun _ => .none

theorem like_self (hS : ∀ span, S span span) (g : Graph) : Like Eq S g g := by
  intro i
  cases g.node? i with
  | none => exact .none
  | some node => exact .some ⟨node.kind.like_self fun _ _ => rfl, hS node.span, rfl, rfl, rfl⟩

theorem like_refl (g : Graph) : Like Eq Eq g g := like_self (fun _ => rfl) g

/-- There is no node in either graph, or there are two that are alike. -/
theorem Like.node (h : Like ρ S g g') (id : NodeId) :
    (g.node? id = none ∧ g'.node? id = none)
      ∨ ∃ n n', g.node? id = some n ∧ g'.node? id = some n' ∧ Node.Like ρ S n n' := by
  have hid := h id
  generalize g.node? id = n? at hid
  generalize g'.node? id = n'? at hid
  cases hid with
  | none => exact .inl ⟨rfl, rfl⟩
  | some hn => exact .inr ⟨_, _, rfl, rfl, hn⟩

theorem Like.mono {ρ' : Name → Name → Prop} (h : Like ρ S g g') (hρ : ∀ n n', ρ n n' → ρ' n n') :
    Like ρ' S g g' := by
  intro id
  rcases h.node id with ⟨hn, hn'⟩ | ⟨n, n', hn, hn', hlike⟩
  · rw [hn, hn']
    exact .none
  · rw [hn, hn']
    exact .some { hlike with kind := hlike.kind.mono hρ }

namespace Like

variable (h : Like ρ S g g')

include h

theorem read (id : NodeId) : Agree (Node.Like ρ S) (g.read id) (g'.read id) := by
  rw [Graph.read, Graph.read]
  rcases h.node id with ⟨hn, hn'⟩ | ⟨n, n', hn, hn', hlike⟩
  · rw [hn, hn']
    exact .error _
  · rw [hn, hn']
    exact .ok hlike

theorem known (id : NodeId) : Agree (Node.Like ρ S) (g.known id) (g'.known id) := by
  rw [Graph.known, Graph.known]
  rcases h.node id with ⟨hn, hn'⟩ | ⟨n, n', hn, hn', hlike⟩
  · rw [hn, hn']
    exact .error _
  · rw [hn, hn']
    exact .ok hlike

theorem mem_iff (id : NodeId) : id ∈ g ↔ id ∈ g' := by
  rw [mem_iff_node?, mem_iff_node?]
  rcases h.node id with ⟨hn, hn'⟩ | ⟨n, n', hn, hn', _⟩
  · simp [hn, hn']
  · simp [hn, hn']

theorem size : g.size = g'.size := by
  -- neither graph has the id that is next in the other
  have hlt : g.nextId ∉ g' := fun hmem => nextId_not_mem g ((h.mem_iff _).mpr hmem)
  have hlt' : g'.nextId ∉ g := fun hmem => nextId_not_mem g' ((h.mem_iff _).mp hmem)
  exact Nat.le_antisymm (Nat.le_of_not_lt hlt') (Nat.le_of_not_lt hlt)

theorem nextId : g.nextId = g'.nextId := by rw [Graph.nextId, h.size, Graph.nextId]

theorem hasRoom_iff (count : Nat) : g.HasRoom count ↔ g'.HasRoom count := by
  rw [HasRoom, h.size, HasRoom]

theorem newId? : g.newId? = g'.newId? := by
  simp only [Graph.newId?, h.hasRoom_iff, h.nextId]

theorem edges (id : NodeId) : g.edges id = g'.edges id := by
  rw [Graph.edges, Graph.edges]
  rcases h.node id with ⟨hn, hn'⟩ | ⟨n, n', hn, hn', hlike⟩
  · rw [hn, hn']
  · rw [hn, hn']
    exact hlike.children

theorem node?_eq_none {id : NodeId} (hn : g.node? id = none) : g'.node? id = none :=
  not_mem_iff_node?.mp fun hmem => not_mem_iff_node?.mpr hn ((h.mem_iff id).mpr hmem)

theorem node?_eq_some {id : NodeId} {n : Node} (hn : g.node? id = some n) :
    ∃ n', g'.node? id = some n' ∧ Node.Like ρ S n n' := by
  rcases h.node id with ⟨hnone, _⟩ | ⟨m, n', hm, hn', hlike⟩
  · rw [hnone] at hn
    exact absurd hn (by simp)
  · obtain rfl := Option.some.inj (hn.symm.trans hm)
    exact ⟨n', hn', hlike⟩

/-! ## Walks over the graph -/

theorem isAboveWithin (id : NodeId) (steps : Nat) : ∀ start,
    g.isAboveWithin id steps start = g'.isAboveWithin id steps start := by
  induction steps with
  | zero => exact fun _ => rfl
  | succ steps ih =>
    intro start
    rw [Graph.isAboveWithin, Graph.isAboveWithin]
    rcases h.node start with ⟨hn, hn'⟩ | ⟨n, n', hn, hn', hlike⟩
    · rw [hn, hn']
    · simp only [hn, hn', hlike.parent, ih]

theorem isAbove (id start : NodeId) : g.isAbove id start = g'.isAbove id start := by
  rw [Graph.isAbove, Graph.isAbove, h.size, h.isAboveWithin]

theorem settle (pending : List NodeId) (seen : NodeSet) :
    g.settle pending seen = g'.settle pending seen := by
  fun_induction g.settle pending seen with
  | case1 seen => rw [Graph.settle]
  | case2 seen id rest hn => rw [settle_none (h.node?_eq_none hn)]
  | case3 seen id rest node hn hpassed ih =>
    obtain ⟨node', hn', hlike⟩ := h.node?_eq_some hn
    rw [settle_some hn', ← hlike.kind.sameForm.isSelfReference, if_pos hpassed, ih]
  | case4 seen id rest node hn hnew hplaceholder =>
    obtain ⟨node', hn', hlike⟩ := h.node?_eq_some hn
    rw [settle_some hn', ← hlike.kind.sameForm.isSelfReference, if_neg hnew,
      ← hlike.kind.sameForm.isPlaceholder, if_pos hplaceholder]
  | case5 seen id rest node hn hnew hplaceholder ih =>
    obtain ⟨node', hn', hlike⟩ := h.node?_eq_some hn
    rw [settle_some hn', ← hlike.kind.sameForm.isSelfReference, if_neg hnew,
      ← hlike.kind.sameForm.isPlaceholder, if_neg hplaceholder, ← hlike.targets, ih]

theorem isResolvedFrom (id : NodeId) (seen : NodeSet) :
    g.isResolvedFrom id seen = g'.isResolvedFrom id seen := h.settle [id] seen

theorem isResolved (id : NodeId) : g.isResolved id = g'.isResolved id := by
  rw [Graph.isResolved, h.isResolvedFrom, Graph.isResolved]

theorem placeholders (pending : List NodeId) (seen : NodeSet) :
    g.placeholders pending seen = g'.placeholders pending seen := by
  fun_induction g.placeholders pending seen with
  | case1 seen => rw [Graph.placeholders]
  | case2 seen id rest hn => rw [placeholders_none (h.node?_eq_none hn)]
  | case3 seen id rest node hn hpassed ih =>
    obtain ⟨node', hn', hlike⟩ := h.node?_eq_some hn
    rw [placeholders_some hn', ← hlike.kind.sameForm.isSelfReference, if_pos hpassed, ih]
  | case4 seen id rest node hn hnew hplaceholder ih =>
    obtain ⟨node', hn', hlike⟩ := h.node?_eq_some hn
    rw [placeholders_some hn', ← hlike.kind.sameForm.isSelfReference, if_neg hnew,
      ← hlike.kind.sameForm.isPlaceholder, if_pos hplaceholder, ih]
  | case5 seen id rest node hn hnew hplaceholder ih =>
    obtain ⟨node', hn', hlike⟩ := h.node?_eq_some hn
    rw [placeholders_some hn', ← hlike.kind.sameForm.isSelfReference, if_neg hnew,
      ← hlike.kind.sameForm.isPlaceholder, if_neg hplaceholder, ← hlike.targets, ih]

theorem unresolvedNodes (root : NodeId) : g.unresolvedNodes root = g'.unresolvedNodes root := by
  rw [Graph.unresolvedNodes, h.placeholders, Graph.unresolvedNodes]

/-! ## Types -/

theorem typeFrom (id : NodeId) (seen : NodeSet) : g.typeFrom id seen = g'.typeFrom id seen := by
  induction id, seen using chain_induction (g := g) with
  | step id seen ih =>
    by_cases hs : id ∈ seen
    · rw [Graph.typeFrom, dif_pos hs, Graph.typeFrom, dif_pos hs]
    rcases h.node id with ⟨hn, hn'⟩ | ⟨n, n', hn, hn', hlike⟩
    · rw [typeFrom_none hs hn, typeFrom_none hs hn']
    · rw [typeFrom_of_node? hs hn, typeFrom_of_node? hs hn', ← hlike.kind.sameForm.forwards?,
        ← hlike.kind.sameForm.producesValue]
      cases hforwards : n.kind.forwards? with
      | none => rw [hlike.target? 0]
      | some slot =>
        dsimp only
        rw [← hlike.target? slot]
        cases hnext : n.target? slot with
        | none => rfl
        | some next => exact ih n slot next hs hn hforwards hnext

theorem typeOf (id : NodeId) : g.typeOf id = g'.typeOf id := h.typeFrom id .empty

theorem valueTypeWithin (steps : Nat) : ∀ id,
    Agree (Option.Rel (TypeShape.Like ρ)) (g.valueTypeWithin steps id)
      (g'.valueTypeWithin steps id) := by
  induction steps with
  | zero => exact fun _ => .error _
  | succ steps ih =>
    intro id
    rw [Graph.valueTypeWithin, Graph.valueTypeWithin]
    refine agree_bind (h.read id) fun n n' hlike => ?_
    rw [← h.typeOf, ← hlike.target?]
    have hread := h.read
    obtain ⟨both, hk, hk', hρ⟩ := hlike.kind
    rw [hk, hk']
    -- what the answer is depends on the category alone
    cases both with
    | type shape => exact .ok (.some ⟨.type shape, rfl, rfl, hρ⟩)
    | statement shape => exact .ok .none
    | qualifiedType qualifiers =>
      cases n.target? 0 with
      | none => exact .ok .none
      | some wrapped => exact agree_bind (hread wrapped) fun m m' hm => .ok hm.kind.type?
    | _ =>
      refine agree_bind (agree_eq_iff.mpr rfl) fun type? type?' htype => ?_
      subst htype
      cases type? with
      | none => exact .ok .none
      | some type => exact ih type

theorem valueType (id : NodeId) :
    Agree (Option.Rel (TypeShape.Like ρ)) (g.valueType id) (g'.valueType id) := by
  rw [Graph.valueType, Graph.valueType, h.size]
  exact h.valueTypeWithin _ id

/-! ## Equality -/

theorem isEqualWithin (hρ : OneToOne ρ) (depth : Nat) :
    g.isEqualWithin depth = g'.isEqualWithin depth := by
  induction depth with
  | zero => rfl
  | succ depth ih =>
    funext a b assumed
    rw [Graph.isEqualWithin, Graph.isEqualWithin, ih]
    rcases h.node a with ⟨ha, ha'⟩ | ⟨x, x', ha, ha', hx⟩
    · rw [ha, ha']
    · rcases h.node b with ⟨hb, hb'⟩ | ⟨y, y', hb, hb', hy⟩
      · rw [ha, ha', hb, hb']
      · have hkinds : x.kind ≠ y.kind ↔ x'.kind ≠ y'.kind := (hx.kind.eq_iff hρ hy.kind).not
        simp only [ha, ha', hb, hb', hkinds, hx.children, hy.children, hx.targets, hy.targets]

theorem isEqualFrom (hρ : OneToOne ρ) (a b : NodeId) (assumed : List NodePair) :
    g.isEqualFrom a b assumed = g'.isEqualFrom a b assumed := by
  rw [Graph.isEqualFrom, pairLimit, h.size, h.isEqualWithin hρ, Graph.isEqualFrom, pairLimit]

theorem isEqual (hρ : OneToOne ρ) (a b : NodeId) : g.isEqual a b = g'.isEqual a b := by
  rw [Graph.isEqual, h.isEqualFrom hρ, Graph.isEqual]

theorem isEqualToAny (hρ : OneToOne ρ) (id : NodeId) (candidates : List NodeId) :
    g.isEqualToAny id candidates = g'.isEqualToAny id candidates := by
  induction candidates with
  | nil => rfl
  | cons candidate rest ih => rw [Graph.isEqualToAny, h.isEqual hρ, ih, Graph.isEqualToAny]

theorem dedupFrom (hρ : OneToOne ρ) (ids : List NodeId) : ∀ found,
    g.dedupFrom found ids = g'.dedupFrom found ids := by
  induction ids with
  | nil => exact fun _ => rfl
  | cons id rest ih =>
    intro found
    rw [Graph.dedupFrom, h.isEqualToAny hρ, ih, ih, Graph.dedupFrom]

theorem dedup (hρ : OneToOne ρ) (ids : List NodeId) : g.dedup ids = g'.dedup ids :=
  h.dedupFrom hρ ids []

/-! ## Visitors -/

/-- Visitors that do the same at nodes that are alike. -/
theorem visitWithin {σ τ : Type} {R : σ → τ → Prop} {visitor : Visitor σ} {visitor' : Visitor τ}
    (hv : ∀ id n n', Node.Like ρ S n n' → ∀ s s', R s s' →
      (visitor id n s).1 = (visitor' id n' s').1 ∧ R (visitor id n s).2 (visitor' id n' s').2)
    (depth : Nat) : ∀ id s s', R s s' →
      Agree R (g.visitWithin visitor depth id s) (g'.visitWithin visitor' depth id s') := by
  induction depth with
  | zero => exact fun _ _ _ _ => .error _
  | succ depth ih =>
    intro id s s' hs
    rw [Graph.visitWithin, Graph.visitWithin]
    rcases h.node id with ⟨hn, hn'⟩ | ⟨n, n', hn, hn', hlike⟩
    · rw [hn, hn']
      exact .error _
    · obtain ⟨hgo, hnext⟩ := hv id n n' hlike s s' hs
      rw [hn, hn']
      dsimp only
      generalize visitor id n s = step at hgo hnext
      generalize visitor' id n' s' = step' at hgo hnext
      obtain ⟨go, next⟩ := step
      obtain ⟨go', next'⟩ := step'
      subst hgo
      cases go with
      | false => exact .ok hnext
      | true =>
        rw [← hlike.ownedChildren]
        exact agree_foldlM _ (fun child _ a b hab => ih child a b hab) hnext

theorem visit {σ τ : Type} {R : σ → τ → Prop} {visitor : Visitor σ} {visitor' : Visitor τ}
    (hv : ∀ id n n', Node.Like ρ S n n' → ∀ s s', R s s' →
      (visitor id n s).1 = (visitor' id n' s').1 ∧ R (visitor id n s).2 (visitor' id n' s').2)
    (root : NodeId) {s : σ} {s' : τ} (hs : R s s') :
    Agree R (g.visit visitor root s) (g'.visit visitor' root s') := by
  rw [Graph.visit, Graph.visit, walkLimit, walkLimit, ← h.size]
  exact h.visitWithin hv _ root s s' hs

/-- Predicates that answer the same about kinds that are alike find the same nodes, unless the first
one loses its way. -/
theorem collect {σ τ : Type} {R : σ → τ → Prop} {lost : σ → Prop} {p : Search σ} {p' : Search τ}
    (hlost : ∀ k s, lost s → lost (p k s).2)
    (hp : ∀ k k', Kind.Like ρ k k' → ∀ s s', R s s' →
      lost (p k s).2 ∨ ((p k s).1 = (p' k' s').1 ∧ R (p k s).2 (p' k' s').2))
    (root : NodeId) {s : σ} {s' : τ} (hs : R s s') :
    Agree (fun a b => lost a.2 ∨ (a.1 = b.1 ∧ R a.2 b.2)) (g.collect root p s)
      (g'.collect root p' s') := by
  let Q (f : Findings σ) (f' : Findings τ) : Prop :=
    lost f.state ∨ (f.found = f'.found ∧ R f.state f'.state)
  have hinspect : ∀ id n n', Node.Like ρ S n n' → ∀ f f', Q f f' →
      Q (inspect p id n f) (inspect p' id n' f') := by
    intro id n n' hlike f f' hf
    have hstate : ∀ {κ : Type} (q : Search κ) (m : Node) (e : Findings κ),
        (inspect q id m e).state = (q m.kind e.state).2 := by
      intro κ q m e
      rw [inspect]
      split <;> rename_i heq <;> rw [heq]
    have hfound : ∀ {κ : Type} (q : Search κ) (m : Node) (e : Findings κ),
        (inspect q id m e).found = if (q m.kind e.state).1 then id :: e.found else e.found := by
      intro κ q m e
      rw [inspect]
      split <;> rename_i heq <;> rw [heq] <;> rfl
    show lost _ ∨ _
    rw [hstate, hstate, hfound, hfound]
    rcases hf with hf | ⟨hfound, hR⟩
    · exact .inl (hlost _ _ hf)
    · rw [hfound]
      refine (hp _ _ hlike.kind _ _ hR).imp_right fun hanswer => ⟨?_, hanswer.2⟩
      rw [hanswer.1]
  have hstart : Q ⟨[], s⟩ ⟨[], s'⟩ := .inr ⟨rfl, hs⟩
  have hvisit : Agree Q (g.visit (fun id node f => (true, inspect p id node f)) root ⟨[], s⟩)
      (g'.visit (fun id node f => (true, inspect p' id node f)) root ⟨[], s'⟩) :=
    h.visit (R := Q) (fun id n n' hlike f f' hf => ⟨rfl, hinspect id n n' hlike f f' hf⟩) root
      hstart
  refine agree_map hvisit fun f f' hf => hf.imp_right fun hboth => ⟨?_, hboth.2⟩
  rw [hboth.1]

omit h in
/-- A search keeps what its predicate keeps. -/
theorem collect_keeps {σ : Type} {P : σ → Prop} {p : Search σ} (hp : ∀ k s, P s → P (p k s).2)
    {root : NodeId} {s t : σ} {found : List NodeId} (hs : P s)
    (hfound : g.collect root p s = .ok (found, t)) : P t := by
  have hself : Agree (fun a b => P a.2 ∨ (a.1 = b.1 ∧ P a.2)) (g.collect root p s)
      (g.collect root p s) :=
    (like_refl g).collect (R := fun a _ => P a) hp (fun k _ _ a _ ha => .inl (hp k a ha)) root hs
  rw [hfound] at hself
  cases hself with
  | ok hanswer => exact hanswer.elim (fun h => h) fun h => h.2

/-! ## Checks -/

theorem checkSlot {k k' : Kind Name} (hk : Kind.SameForm k k') (index : Nat) (id : NodeId) :
    g.checkSlot k index id = g'.checkSlot k' index id := by
  rw [Graph.checkSlot, Graph.checkSlot, hk.layout, hk.variant]
  cases k'.layout.slot index with
  | none => rfl
  | some expected =>
    refine agree_eq_iff.mp (agree_bind (h.known id) fun n n' hlike => agree_eq_iff.mpr ?_)
    rw [hlike.category]

theorem checkFree (child : NodeId) : g.checkFree child = g'.checkFree child := by
  rw [Graph.checkFree, Graph.checkFree]
  refine agree_eq_iff.mp (agree_bind (agree_reading (h.read child)) fun n n' hlike =>
    agree_eq_iff.mpr ?_)
  rw [hlike.frozen, hlike.parent]

theorem checkEdge (parent : NodeId) (e : Edge) : g.checkEdge parent e = g'.checkEdge parent e := by
  cases e with
  | ref target => rfl
  | owned child =>
    rw [Graph.checkEdge, checkAdoption, h.checkFree, h.isAbove, Graph.checkEdge, checkAdoption]

theorem checkPush (parent : NodeId) (e : Edge) : g.checkPush parent e = g'.checkPush parent e := by
  rw [Graph.checkPush, Graph.checkPush]
  refine agree_eq_iff.mp (agree_bind (h.known parent) fun n n' hlike => agree_eq_iff.mpr ?_)
  rw [checkOpen, checkOpen, hlike.frozen, hlike.kind.sameForm.variant, hlike.children,
    h.checkSlot hlike.kind.sameForm, h.checkEdge]

theorem checkFreeze (id : NodeId) : g.checkFreeze id = g'.checkFreeze id := by
  rw [Graph.checkFreeze, Graph.checkFreeze]
  refine agree_eq_iff.mp (agree_bind (h.known id) fun n n' hlike => agree_eq_iff.mpr ?_)
  rw [checkOpen, checkOpen, hlike.frozen, checkArity, checkArity, hlike.kind.sameForm.layout,
    hlike.kind.sameForm.variant, hlike.children]

theorem checkChildren {k k' : Kind Name} (hk : Kind.SameForm k k') (rest : List Edge) :
    ∀ earlier, g.checkChildren k earlier rest = g'.checkChildren k' earlier rest := by
  induction rest with
  | nil => exact fun _ => rfl
  | cons e rest ih =>
    intro earlier
    rw [Graph.checkChildren, Graph.checkChildren, h.checkSlot hk]
    cases e with
    | ref target => simp only [ih]
    | owned child => simp only [h.checkFree, ih]

theorem checkCreate {k k' : Kind Name} (hk : Kind.SameForm k k') (children : List Edge) :
    g.checkCreate k children = g'.checkCreate k' children := by
  rw [Graph.checkCreate, checkArity, hk.layout, hk.variant, h.checkChildren hk, Graph.checkCreate,
    checkArity]

theorem checkReplace (parent : NodeId) (index : Nat) (e : Edge) :
    g.checkReplace parent index e = g'.checkReplace parent index e := by
  rw [Graph.checkReplace, Graph.checkReplace]
  refine agree_eq_iff.mp (agree_bind (h.known parent) fun n n' hlike => agree_eq_iff.mpr ?_)
  rw [hlike.children, hlike.kind.sameForm.variant]
  cases n'.children[index]? with
  | none => rfl
  | some old =>
    simp only [h.checkSlot hlike.kind.sameForm, h.checkEdge, h.isResolved]

theorem checkDeclaration (id : NodeId) : g.checkDeclaration id = g'.checkDeclaration id := by
  rw [Graph.checkDeclaration, Graph.checkDeclaration]
  refine agree_eq_iff.mp (agree_bind (h.known id) fun n n' hlike => agree_eq_iff.mpr ?_)
  rw [hlike.category, h.typeOf]
  obtain ⟨both, hk, hk', _⟩ := hlike.kind
  rw [hk, hk']
  cases both <;> rfl

/-! ## Writes -/

/-- A change that is the same at every node keeps graphs alike. -/
theorem change {h₁ h₂ : Graph} {f : NodeId → Node → Node}
    (h₁f : ∀ id, h₁.node? id = (g.node? id).map (f id))
    (h₂f : ∀ id, h₂.node? id = (g'.node? id).map (f id))
    (hf : ∀ id n n', Node.Like ρ S n n' → Node.Like ρ S (f id n) (f id n')) : Like ρ S h₁ h₂ := by
  intro id
  rw [h₁f, h₂f]
  rcases h.node id with ⟨hn, hn'⟩ | ⟨n, n', hn, hn', hlike⟩
  · rw [hn, hn']
    exact .none
  · rw [hn, hn']
    exact .some (hf id n n' hlike)

theorem addChild (parent : NodeId) (e : Edge) :
    Like ρ S (g.addChild parent e) (g'.addChild parent e) := by
  refine h.change (node?_addChild g parent e) (node?_addChild g' parent e) fun id n n' hlike => ?_
  rw [hlike.children, hlike.parent, hlike.frozen]
  exact ⟨hlike.kind, hlike.span, rfl, rfl, rfl⟩

theorem finish (id : NodeId) : Like ρ S (g.finish id) (g'.finish id) := by
  refine h.change (node?_finish g id) (node?_finish g' id) fun other n n' hlike => ?_
  rw [hlike.children, hlike.parent, hlike.frozen]
  exact ⟨hlike.kind, hlike.span, rfl, rfl, rfl⟩

theorem setChild (parent : NodeId) (index : Nat) (old new : Edge) :
    Like ρ S (g.setChild parent index old new) (g'.setChild parent index old new) := by
  refine h.change (node?_setChild g parent index old new) (node?_setChild g' parent index old new)
    fun id n n' hlike => ?_
  rw [hlike.children, hlike.parent, hlike.frozen]
  exact ⟨hlike.kind, hlike.span, rfl, rfl, rfl⟩

theorem begin {k k' : Kind Name} (hk : Kind.Like ρ k k') {span span' : Span}
    (hspan : S span span') :
    Like ρ S (g.begin k span) (g'.begin k' span') := by
  intro id
  rw [node?_begin, node?_begin, ← h.nextId]
  split
  · exact .some ⟨hk, hspan, rfl, rfl, rfl⟩
  · exact h id

theorem insert {k k' : Kind Name} (hk : Kind.Like ρ k k') (children : List Edge) {span span' : Span}
    (hspan : S span span') : Like ρ S (g.insert k children span) (g'.insert k' children span') := by
  intro id
  rw [node?_insert, node?_insert, ← h.nextId]
  split
  · exact .some ⟨hk, hspan, rfl, rfl, rfl⟩
  · rcases h.node id with ⟨hn, hn'⟩ | ⟨n, n', hn, hn', hlike⟩
    · rw [hn, hn']
      exact .none
    · rw [hn, hn']
      exact .some { hlike with parent := by dsimp only; rw [hlike.parent] }

end Like

end Graph

/-! ## Descriptions -/

/-- Names that stand for each other have the same text. -/
def Spelled (ρ : Name → Name → Prop) (names names' : Interner) : Prop :=
  ∀ n n', ρ n n' → names.lookup n = names'.lookup n'

variable {c c' : Context} (h : Graph.Like ρ S c.graph c'.graph)
  (hnames : Spelled ρ c.names c'.names)

include hnames

theorem Kind.Like.describeKind {k k' : Kind Name} (hk : Kind.Like ρ k k') :
    c.describeKind k = c'.describeKind k' := by
  rw [Context.describeKind, hk.map_eq hnames, Context.describeKind]

include h

theorem Graph.Like.describe (id : NodeId) : c.describe id = c'.describe id := by
  rw [Context.describe, Context.describe, Graph.kind?, Graph.kind?]
  rcases h.node id with ⟨hn, hn'⟩ | ⟨n, n', hn, hn', hlike⟩
  · rw [hn, hn']
    rfl
  · rw [hn, hn']
    exact hlike.kind.describeKind hnames

theorem Graph.Like.outlineWithin (levels : Nat) : ∀ depth id,
    c.outlineWithin levels depth id = c'.outlineWithin levels depth id := by
  induction levels with
  | zero => exact fun _ _ => rfl
  | succ levels ih =>
    intro depth id
    rw [Context.outlineWithin, Context.outlineWithin]
    rcases h.node id with ⟨hn, hn'⟩ | ⟨n, n', hn, hn', hlike⟩
    · rw [hn, hn']
    · simp only [hn, hn', hlike.kind.describeKind hnames, hlike.children, ih]

theorem Graph.Like.dump (root : NodeId) : c.dump root = c'.dump root := by
  rw [Context.dump, Context.outline, h.size, h.outlineWithin hnames, Context.dump, Context.outline]

end SyntaxGraph
