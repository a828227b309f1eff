import SyntaxGraph.Proofs.Likeness
import SyntaxGraph.Proofs.Reachable

/-!
# Two runs side by side

Two runs start from contexts that are alike and do the same, except that they may
say other places of the source and may get other names for the same texts. The
tables of names are where they can come apart, so a `Likeness` says how the two
tables stand to each other, which name of the one stands for which of the other,
and what interning a text does to that. It may also happen that the first table
runs full where the second does not. Then the first run is lost, and nothing is
said about it any more.

Between two texts interned nothing of this matters: the tables stay what they
are, and the two runs go in step. A command interns at most one text, and first
of all. A pass is what its offers are.
-/

namespace SyntaxGraph

/-! ## Steps that go together -/

section Coupled

variable {ε σ τ α β : Type}

/-- Both results are the same answer, or the same error, and the states that go with them are
related. -/
inductive Match (R : σ → τ → Prop) : EStateM.Result ε σ α → EStateM.Result ε τ α → Prop where
  | ok {a : α} {s : σ} {t : τ} : R s t → Match R (.ok a s) (.ok a t)
  | error {e : ε} {s : σ} {t : τ} : R s t → Match R (.error e s) (.error e t)

/-- From related states the steps come to matching results, unless the first one is lost. A run that
is lost stays lost. -/
structure Coupled (R : σ → τ → Prop) (lost : σ → Prop) (x : EStateM ε σ α) (y : EStateM ε τ α) :
    Prop where
  stays : ∀ s, lost s → lost (after x s)
  meets : ∀ s t, R s t → lost (after x s) ∨ Match R (x s) (y t)

variable {R : σ → τ → Prop} {lost : σ → Prop}

theorem coupled_pure (a : α) :
    Coupled R lost (pure a : EStateM ε σ α) (pure a : EStateM ε τ α) :=
  ⟨fun _ h => h, fun _ _ h => .inr (.ok h)⟩

theorem coupled_throw (e : ε) :
    Coupled R lost (throw e : EStateM ε σ α) (throw e : EStateM ε τ α) :=
  ⟨fun _ h => h, fun _ _ h => .inr (.error h)⟩

theorem coupled_bind {x : EStateM ε σ α} {y : EStateM ε τ α} {f : α → EStateM ε σ β}
    {f' : α → EStateM ε τ β} (h : Coupled R lost x y) (hf : ∀ a, Coupled R lost (f a) (f' a)) :
    Coupled R lost (x >>= f) (y >>= f') := by
  have hstays : ∀ s, lost (after x s) → lost (after (x >>= f) s) := by
    intro s hs
    rw [after_bind]
    unfold after at hs
    cases hx : x s with
    | error e s' => rwa [hx] at hs
    | ok a s' =>
      rw [hx] at hs
      exact (hf a).stays s' hs
  refine ⟨fun s hs => hstays s (h.stays s hs), fun s t hst => ?_⟩
  rcases h.meets s t hst with hlost | hmatch
  · exact .inl (hstays s hlost)
  · rw [after_bind]
    simp only [bind, EStateM.bind]
    generalize x s = r at hmatch
    generalize y t = r' at hmatch
    cases hmatch with
    | ok hst' => exact (hf _).meets _ _ hst'
    | error hst' => exact .inr (.error hst')

end Coupled

/-! ## Between two texts -/

section Steady

variable (ρ : Name → Name → Prop) (S : Span → Span → Prop) (t t' : Interner)

/-- The contexts have the given tables, and their graphs are alike. -/
structure Steady (c d : Context) : Prop where
  left : c.names = t
  right : d.names = t'
  graph : Graph.Like ρ S c.graph d.graph

/-- The steps go in step while no text is interned. -/
abbrev InStep {α : Type} (x y : Build α) : Prop := Coupled (Steady ρ S t t') (fun _ => False) x y

variable {ρ S t t'}

/-- Without a text that is interned no run gets lost. -/
theorem inStep_of_match {α : Type} {x y : Build α}
    (h : ∀ c d, Steady ρ S t t' c d → Match (Steady ρ S t t') (x c) (y d)) : InStep ρ S t t' x y :=
  ⟨fun _ h => h.elim, fun c d hcd => .inr (h c d hcd)⟩

namespace Build

theorem inStep_check {α : Type} {q q' : Graph → Except NodeError α}
    (hq : ∀ {g g'}, Graph.Like ρ S g g' → q g = q' g') : InStep ρ S t t' (check q) (check q') := by
  refine inStep_of_match fun c d h => ?_
  rw [check, check, hq h.graph]
  cases q' d.graph with
  | ok answer => exact .ok h
  | error cause => exact .error h

theorem inStep_write {f f' : Graph → Graph}
    (hf : ∀ {g g'}, Graph.Like ρ S g g' → Graph.Like ρ S (f g) (f' g')) :
    InStep ρ S t t' (write f) (write f') :=
  inStep_of_match fun _ _ h => .ok ⟨h.left, h.right, hf h.graph⟩

/-- There is room in the one arena exactly if there is in the other. -/
theorem inStep_allocate : InStep ρ S t t' allocate allocate := by
  refine inStep_of_match fun c d h => ?_
  rw [allocate, allocate, h.graph.newId?, h.graph.size]
  cases d.graph.newId? with
  | some id => exact .ok h
  | none => exact .error h

variable {k k' : Kind Name} {span span' : Span} (hspan : S span span')

include hspan

theorem inStep_begin (hk : Kind.Like ρ k k') : InStep ρ S t t' (begin k span) (begin k' span') :=
  coupled_bind inStep_allocate fun id =>
    coupled_bind (inStep_write fun h => h.begin hk hspan) fun _ => coupled_pure id

theorem inStep_create (hk : Kind.Like ρ k k') (children : List Edge) :
    InStep ρ S t t' (create k children span) (create k' children span') := by
  refine coupled_bind (inStep_check fun h => h.checkCreate hk.sameForm children) fun _ => ?_
  refine coupled_bind inStep_allocate fun id => ?_
  exact coupled_bind (inStep_write fun h => h.insert hk children hspan) fun _ => coupled_pure id

omit hspan

theorem inStep_pushChild (parent : NodeId) (e : Edge) :
    InStep ρ S t t' (pushChild parent e) (pushChild parent e) :=
  coupled_bind (inStep_check fun h => h.checkPush parent e) fun _ =>
    inStep_write fun h => h.addChild parent e

theorem inStep_freeze (id : NodeId) : InStep ρ S t t' (freeze id) (freeze id) :=
  coupled_bind (inStep_check fun h => h.checkFreeze id) fun _ => inStep_write fun h => h.finish id

theorem inStep_replaceChild (parent : NodeId) (index : Nat) (e : Edge) :
    InStep ρ S t t' (replaceChild parent index e) (replaceChild parent index e) := by
  refine coupled_bind (inStep_check fun h => h.checkReplace parent index e) fun old => ?_
  dsimp only
  split
  · refine coupled_bind (inStep_write fun h => ?_) fun _ => coupled_pure old
    exact h.setChild parent index old e
  · exact coupled_pure old

include hspan

theorem inStep_integerType (sign : Signedness) (width : UInt16) :
    InStep ρ S t t' (integerType sign width span) (integerType sign width span') := by
  have htype : Kind.Like ρ (.type (.integer sign width)) (.type (.integer sign width)) :=
    Kind.like_nameless rfl
  have hconstant : Kind.Like ρ (.qualifiedType .onlyConst) (.qualifiedType .onlyConst) :=
    Kind.like_nameless rfl
  have hzero : Kind.Like ρ (.literal (.zero sign width)) (.literal (.zero sign width)) :=
    Kind.like_nameless (by cases sign <;> rfl)
  unfold integerType
  dsimp only
  split
  · exact coupled_throw _
  · refine coupled_bind (inStep_begin hspan htype) fun type => ?_
    refine coupled_bind (inStep_create hspan hconstant _) fun constant => ?_
    refine coupled_bind (inStep_create hspan hzero _) fun zero => ?_
    refine coupled_bind (inStep_pushChild _ _) fun _ => ?_
    exact coupled_bind (inStep_freeze _) fun _ => coupled_pure _

theorem inStep_qualifiedType (qualifiers : Qualifiers) (wrapped : FreshType) :
    InStep ρ S t t' (qualifiedType qualifiers wrapped span)
      (qualifiedType qualifiers wrapped span') := by
  refine coupled_bind ?_ fun type => inStep_create hspan (Kind.like_nameless rfl) _
  cases wrapped with
  | leaf shape =>
    -- no name can be in the shape
    refine inStep_create hspan (Kind.like_nameless ?_) _
    cases shape with
    | name id => exact id.elim
    | _ => rfl
  | integer sign width => exact inStep_integerType hspan sign width

theorem inStep_declarationRef (declaration : NodeId) :
    InStep ρ S t t' (declarationRef declaration span) (declarationRef declaration span') :=
  coupled_bind (inStep_check fun h => h.checkDeclaration declaration) fun _ =>
    inStep_create hspan (Kind.like_nameless rfl) _

end Build

end Steady

/-! ## How two contexts may differ -/

/-- What may be different in two runs that otherwise do the same. -/
structure Likeness where
  /-- How the tables stand to each other. -/
  tables : Interner → Interner → Prop
  /-- Which names of the two tables stand for each other. -/
  names : Interner → Interner → Name → Name → Prop
  /-- Which places of the source do. -/
  spans : Span → Span → Prop
  /-- The table of the first run is of no use any more. -/
  lost : Interner → Prop
  oneToOne : ∀ {t t'}, tables t t' → OneToOne (names t t')
  spelled : ∀ {t t'}, tables t t' → Spelled (names t t') t t'
  /-- A text that finds its place in the first table finds it in the second. -/
  intern_ok : ∀ {t t' s n u}, tables t t' → t.intern s = .ok (n, u) →
    ∃ n' u', t'.intern s = .ok (n', u') ∧ tables u u' ∧ names u u' n n'
      ∧ ∀ m m', names t t' m m' → names u u' m m'
  /-- One that does not finds no place in the second either, unless the first table is lost. -/
  intern_error : ∀ {t t' s e}, tables t t' → t.intern s = .error e →
    lost t ∨ t'.intern s = .error e
  lost_intern : ∀ {t s n u}, t.intern s = .ok (n, u) → lost t → lost u

namespace Likeness

variable (L : Likeness)

/-- The contexts differ in nothing else. -/
structure Twins (c d : Context) : Prop where
  tables : L.tables c.names d.names
  graph : Graph.Like (L.names c.names d.names) L.spans c.graph d.graph

/-- The contexts, with the tables of `c` and `d` or larger ones, are still alike. -/
structure Grown (c d c₁ d₁ : Context) : Prop where
  twins : L.Twins c₁ d₁
  names : ∀ m m', L.names c.names d.names m m' → L.names c₁.names d₁.names m m'

/-- What two runs come to that start from the contexts `c` and `d`. The answers are related, for the
names that stand for each other in the end; or the error is the same; or the first run could not
go on because it is lost. -/
inductive Met {α β : Type} (Q : (Name → Name → Prop) → α → β → Prop) (c d : Context) :
    EStateM.Result BuildError Context α → EStateM.Result BuildError Context β → Prop where
  | ok {a : α} {b : β} {c₁ d₁ : Context} : L.Grown c d c₁ d₁ →
    Q (L.names c₁.names d₁.names) a b → Met Q c d (.ok a c₁) (.ok b d₁)
  | error {e : BuildError} {c₁ d₁ : Context} : L.Grown c d c₁ d₁ →
    Met Q c d (.error e c₁) (.error e d₁)
  | lost {e : BuildError} {c₁ : Context} {r : EStateM.Result BuildError Context β} :
    L.lost c₁.names → Met Q c d (.error e c₁) r

end Likeness

/-! ## Commands -/

/-- The labels say the same text, or names that stand for each other. -/
inductive Label.Like (ρ : Name → Name → Prop) : Label → Label → Prop where
  | text (s : String) : Like ρ (.text s) (.text s)
  | name {n n' : Name} : ρ n n' → Like ρ (.name n) (.name n')

/-- The blueprints are the same but for names in them. -/
inductive Blueprint.Like (ρ : Name → Name → Prop) : Blueprint → Blueprint → Prop where
  | node {kind kind' : Kind Label} (children : List Edge) :
    Kind.Like (Label.Like ρ) kind kind' → Like ρ (.node kind children) (.node kind' children)
  | integer (sign : Signedness) (width : UInt16) :
    Like ρ (.integer sign width) (.integer sign width)
  | qualified (qualifiers : Qualifiers) (wrapped : FreshType) :
    Like ρ (.qualified qualifiers wrapped) (.qualified qualifiers wrapped)
  | typed {kind kind' : Kind Label} (qualifiers : Qualifiers) (wrapped : FreshType)
    (children : List Edge) : Kind.Like (Label.Like ρ) kind kind' →
    Like ρ (.typed kind qualifiers wrapped children) (.typed kind' qualifiers wrapped children)
  | selfReference (record : NodeId) : Like ρ (.selfReference record) (.selfReference record)

/-- The creations are the same but for names in them. -/
inductive Creation.Like (ρ : Name → Name → Prop) : Creation → Creation → Prop where
  | begin {kind kind' : Kind Label} :
    Kind.Like (Label.Like ρ) kind kind' → Like ρ (.begin kind) (.begin kind')
  | build {plan plan' : Blueprint} :
    Blueprint.Like ρ plan plan' → Like ρ (.build plan) (.build plan')
  | refer (declaration : NodeId) : Like ρ (.refer declaration) (.refer declaration)

/-- The commands are the same but for names and places in them. -/
inductive Command.Like (ρ : Name → Name → Prop) (S : Span → Span → Prop) :
    Command → Command → Prop where
  | make {what what' : Creation} {span span' : Span} :
    Creation.Like ρ what what' → S span span' → Like ρ S (.make what span) (.make what' span')
  | intern (text : String) : Like ρ S (.intern text) (.intern text)
  | push (parent : NodeId) (e : Edge) : Like ρ S (.push parent e) (.push parent e)
  | freeze (id : NodeId) : Like ρ S (.freeze id) (.freeze id)
  | replace (parent : NodeId) (index : Nat) (e : Edge) :
    Like ρ S (.replace parent index e) (.replace parent index e)

/-- The replies are the same, or names that stand for each other. -/
inductive Reply.Like (ρ : Name → Name → Prop) : Reply → Reply → Prop where
  | made (id : NodeId) : Like ρ (.made id) (.made id)
  | named {n n' : Name} : ρ n n' → Like ρ (.named n) (.named n')
  | done : Like ρ .done .done
  | replaced (old : Edge) : Like ρ (.replaced old) (.replaced old)

namespace Likeness

variable {L : Likeness} {c d : Context}

theorem Twins.grown (h : L.Twins c d) : L.Grown c d c d := ⟨h, fun _ _ hn => hn⟩

theorem Twins.steady (h : L.Twins c d) :
    Steady (L.names c.names d.names) L.spans c.names d.names c d :=
  ⟨rfl, rfl, h.graph⟩

/-- Between two texts the runs stay alike. -/
theorem Grown.of_steady {c₁ d₁ c₂ d₂ : Context} (h : L.Grown c d c₁ d₁)
    (hs : Steady (L.names c₁.names d₁.names) L.spans c₁.names d₁.names c₂ d₂) :
    L.Grown c d c₂ d₂ := by
  obtain ⟨hleft, hright, hgraph⟩ := hs
  refine ⟨⟨?_, ?_⟩, ?_⟩
  · rw [hleft, hright]
    exact h.twins.tables
  · rw [hleft, hright]
    exact hgraph
  · rw [hleft, hright]
    exact h.names

variable {α β α' β' : Type} {Q : (Name → Name → Prop) → α → β → Prop}

/-- Runs that have come together go on in step. -/
theorem met_bind {x : Build α} {y : Build β} {f : α → Build α'} {f' : β → Build α'}
    (h : L.Met Q c d (x c) (y d))
    (hf : ∀ t t' a b, Q (L.names t t') a b → InStep (L.names t t') L.spans t t' (f a) (f' b)) :
    L.Met (fun _ => Eq) c d ((x >>= f) c) ((y >>= f') d) := by
  simp only [bind, EStateM.bind]
  generalize x c = r at h
  generalize y d = r' at h
  cases h with
  | error hgrown => exact .error hgrown
  | lost hlost => exact .lost hlost
  | ok hgrown hQ =>
    rename_i a b c₁ d₁
    have hmeets := ((hf _ _ a b hQ).meets _ _ hgrown.twins.steady).resolve_left fun h => h
    dsimp only
    generalize f a c₁ = r at hmeets
    generalize f' b d₁ = r' at hmeets
    cases hmeets with
    | ok hs => exact .ok (hgrown.of_steady hs) rfl
    | error hs => exact .error (hgrown.of_steady hs)

/-- What is said of answers may be weakened. -/
theorem met_map {x : Build α} {y : Build β} {f : α → α'} {f' : β → β'}
    {Q' : (Name → Name → Prop) → α' → β' → Prop} (h : L.Met Q c d (x c) (y d))
    (hf : ∀ ρ a b, Q ρ a b → Q' ρ (f a) (f' b)) :
    L.Met Q' c d ((do return f (← x)) c) ((do return f' (← y)) d) := by
  simp only [bind, EStateM.bind, pure, EStateM.pure]
  generalize x c = r at h
  generalize y d = r' at h
  cases h with
  | ok hgrown hQ => exact .ok hgrown (hf _ _ _ hQ)
  | error hgrown => exact .error hgrown
  | lost hlost => exact .lost hlost

theorem met_of_inStep (h : L.Twins c d) {x y : Build α}
    (hxy : InStep (L.names c.names d.names) L.spans c.names d.names x y) :
    L.Met (fun _ => Eq) c d (x c) (y d) := by
  have hmeets := (hxy.meets c d h.steady).resolve_left fun h => h
  generalize x c = r at hmeets
  generalize y d = r' at hmeets
  cases hmeets with
  | ok hs => exact .ok (h.grown.of_steady hs) rfl
  | error hs => exact .error (h.grown.of_steady hs)

/-- A text gets names that stand for each other. -/
theorem met_intern (h : L.Twins c d) (s : String) :
    L.Met (fun ρ => ρ) c d (Build.intern s c) (Build.intern s d) := by
  rw [Build.intern]
  cases hs : c.names.intern s with
  | ok answer =>
    obtain ⟨n, u⟩ := answer
    obtain ⟨n', u', hs', htables, hn, hgrow⟩ := L.intern_ok h.tables hs
    rw [Build.intern, hs']
    exact .ok ⟨⟨htables, h.graph.mono hgrow⟩, hgrow⟩ hn
  | error e =>
    rcases L.intern_error h.tables hs with hlost | hs'
    · exact .lost hlost
    · rw [Build.intern, hs']
      exact .error h.grown

theorem met_resolveKind (h : L.Twins c d) {kind kind' : Kind Label}
    (hk : Kind.Like (Label.Like (L.names c.names d.names)) kind kind') :
    L.Met (fun ρ => Kind.Like ρ) c d (Build.resolveKind kind c) (Build.resolveKind kind' d) := by
  obtain ⟨both, rfl, rfl, hboth⟩ := hk
  have hkinds : ∀ {ρ : Name → Name → Prop} {n n' : Name}, ρ n n' →
      Kind.Like ρ ((both.map Prod.fst).map fun _ => n) ((both.map Prod.snd).map fun _ => n') := by
    intro ρ n n' hn
    rw [Kind.map_map, Kind.map_map]
    exact Kind.like_map both _ _ fun _ _ => hn
  unfold Build.resolveKind
  rw [Kind.name?_map, Kind.name?_map]
  cases hname : both.name? with
  | none =>
    refine .ok h.grown ?_
    rw [Kind.map_map, Kind.map_map]
    exact Kind.like_map both _ _ fun n hn => by simp [hname] at hn
  | some labels =>
    obtain ⟨l, l'⟩ := labels
    have hlabels : Label.Like (L.names c.names d.names) l l' := hboth (l, l') hname
    cases hlabels with
    | text s => exact met_map (met_intern h s) fun ρ n n' hn => hkinds hn
    | name hn => exact .ok h.grown (hkinds hn)

theorem met_blueprint (h : L.Twins c d) {plan plan' : Blueprint} {span span' : Span}
    (hplan : Blueprint.Like (L.names c.names d.names) plan plan') (hspan : L.spans span span') :
    L.Met (fun _ => Eq) c d (plan.build span c) (plan'.build span' d) := by
  cases hplan with
  | node children hk =>
    exact met_bind (met_resolveKind h hk) fun _ _ _ _ hk => Build.inStep_create hspan hk children
  | typed qualifiers wrapped children hk =>
    refine met_bind (met_resolveKind h hk) fun _ _ _ _ hk => ?_
    exact coupled_bind (Build.inStep_qualifiedType hspan qualifiers wrapped) fun type =>
      Build.inStep_create hspan hk _
  | integer sign width => exact met_of_inStep h (Build.inStep_integerType hspan sign width)
  | qualified qualifiers wrapped =>
    exact met_of_inStep h (Build.inStep_qualifiedType hspan qualifiers wrapped)
  | selfReference record =>
    refine met_of_inStep h (coupled_bind ?_ fun type => ?_)
    · exact Build.inStep_create hspan (Kind.like_nameless rfl) _
    · exact Build.inStep_create hspan (Kind.like_nameless rfl) _

theorem met_creation (h : L.Twins c d) {what what' : Creation} {span span' : Span}
    (hwhat : Creation.Like (L.names c.names d.names) what what') (hspan : L.spans span span') :
    L.Met (fun _ => Eq) c d (what.run span c) (what'.run span' d) := by
  cases hwhat with
  | begin hk =>
    exact met_bind (met_resolveKind h hk) fun _ _ _ _ hk => Build.inStep_begin hspan hk
  | build hplan => exact met_blueprint h hplan hspan
  | refer declaration => exact met_of_inStep h (Build.inStep_declarationRef hspan declaration)

/-- **Commands that are alike meet with replies that are alike.** -/
theorem met_command (h : L.Twins c d) {cmd cmd' : Command}
    (hcmd : Command.Like (L.names c.names d.names) L.spans cmd cmd') :
    L.Met Reply.Like c d (cmd.run c) (cmd'.run d) := by
  cases hcmd with
  | make hwhat hspan => exact met_map (met_creation h hwhat hspan) fun _ id _ hid => hid ▸ .made id
  | intern text => exact met_map (met_intern h text) fun _ _ _ hn => .named hn
  | push parent e =>
    exact met_map (met_of_inStep h (Build.inStep_pushChild parent e)) fun _ _ _ _ => .done
  | freeze id => exact met_map (met_of_inStep h (Build.inStep_freeze id)) fun _ _ _ _ => .done
  | replace parent index e =>
    exact met_map (met_of_inStep h (Build.inStep_replaceChild parent index e)) fun _ old _ hold =>
      hold ▸ .replaced old

/-! ## Passes -/

section Passes

variable {σ σ' ε : Type} (L) (M : Interner → Interner → σ → σ' → Prop)

/-- The contexts of the passes are alike, and so is what the passes remember. -/
structure PassTwins (s : PassState σ) (t : PassState σ') : Prop where
  context : L.Twins s.context t.context
  memory : M s.context.names t.context.names s.memory t.memory

/-- The steps of two passes go together. -/
abbrev PassCoupled {α : Type} (x : PassM σ ε α) (y : PassM σ' ε α) : Prop :=
  Coupled (L.PassTwins M) (fun s => L.lost s.context.names) x y

theorem passCoupled_ask {α : Type} {question : Graph → Except Fault α} (hq : AsksEdges question) :
    L.PassCoupled M (ε := ε) (PassM.ask question) (PassM.ask question) := by
  refine ⟨fun s hs => ?_, fun s t h => .inr ?_⟩
  · unfold after PassM.ask
    cases question s.context.graph <;> exact hs
  · rw [PassM.ask, PassM.ask, hq _ _ h.context.graph.mem_iff h.context.graph.edges]
    cases question t.context.graph with
    | ok answer => exact .ok h
    | error fault => exact .error h

theorem passCoupled_replaceChild (parent : NodeId) (index : Nat) (e : Edge) :
    L.PassCoupled M (ε := ε) (PassM.replaceChild parent index e)
      (PassM.replaceChild parent index e) := by
  refine ⟨fun s hs => ?_, fun s t h => .inr ?_⟩
  · unfold after PassM.replaceChild
    cases s.context.graph.checkReplace parent index e with
    | error cause => exact hs
    | ok old =>
      dsimp only
      by_cases ho : old = e
      · rw [if_pos ho]
        exact hs
      · rw [if_neg ho]
        exact hs
  · rw [PassM.replaceChild, PassM.replaceChild, h.context.graph.checkReplace]
    cases t.context.graph.checkReplace parent index e with
    | error cause => exact .error h
    | ok old =>
      dsimp only
      by_cases ho : old = e
      · rw [if_pos ho, if_pos ho]
        exact .ok h
      · rw [if_neg ho, if_neg ho]
        exact .ok ⟨⟨h.context.tables, h.context.graph.setChild parent index old e⟩, h.memory⟩

theorem lifts_passCoupled :
    Lifts fun {α} (x : PassM σ ε α) (y : PassM σ' ε α) => L.PassCoupled M x y where
  pure := coupled_pure
  bind := coupled_bind
  ask := L.passCoupled_ask M

/-- **Passes whose offers go together go together.** -/
theorem passCoupled_run {offer : Pass σ ε} {offer' : Pass σ' ε}
    (hoffer : ∀ id, L.PassCoupled M (offer id) (offer' id)) (depth : Nat) (root : NodeId) :
    L.PassCoupled M (offer.run depth root) (offer'.run depth root) :=
  Pass.lifts_run (L.lifts_passCoupled M) (L.passCoupled_replaceChild M) offer offer' hoffer depth
    root

end Passes

end Likeness

end SyntaxGraph
