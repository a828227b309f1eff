import SyntaxGraph.Proofs.Clients
import SyntaxGraph.Proofs.Names

/-!
# A table that others use as well

Units that are compiled side by side may share a table of names. What the others
intern takes slots in the table, so a unit gets other names for its texts than it
would get from a table of its own. Its client cannot tell: a script comes to the
same with either table.

The shared table holds every text that the unit's own table would hold. A name
from the one stands for the name from the other that has the same text; that pairs
names one to one, and larger tables keep the pairs. Alike contexts give alike
answers for such names. The one thing that a unit could notice is that the others
fill a shard; from then on nothing is said of it any more.
-/

namespace SyntaxGraph

open Name (slotCount)

/-! ## Two tables -/

namespace Interner

/-- Some shard has no slot left. -/
def Full (t : Interner) : Prop :=
  ∃ i : Fin Name.shardCount, slotCount ≤ (t.shards.get i).texts.size

instance (t : Interner) : Decidable t.Full :=
  inferInstanceAs (Decidable (∃ i : Fin Name.shardCount, slotCount ≤ (t.shards.get i).texts.size))

/-- The first table holds every text that the second one holds. -/
structure Covers (t t' : Interner) : Prop where
  sound : t.Sound
  sound' : t'.Sound
  held : ∀ s n', t'.name? s = some n' → ∃ n, t.name? s = some n

/-- The names have the same text, the one in the first table and the other in the second. -/
def SameText (t t' : Interner) (n n' : Name) : Prop :=
  ∃ s, t.name? s = some n ∧ t'.name? s = some n'

/-- The second table may come from the first one by calls. -/
structure Below (t u : Interner) : Prop where
  sound : t.Sound → u.Sound
  name? : ∀ s n, t.name? s = some n → u.name? s = some n
  size_le : ∀ i : Fin Name.shardCount, (t.shards.get i).texts.size ≤ (u.shards.get i).texts.size

variable {t t' u u' : Interner}

theorem below_refl (t : Interner) : t.Below t :=
  ⟨fun h => h, fun _ _ h => h, fun _ => Nat.le_refl _⟩

theorem Below.trans {v : Interner} (h : t.Below u) (h' : u.Below v) : t.Below v where
  sound ht := h'.sound (h.sound ht)
  name? s n hn := h'.name? s n (h.name? s n hn)
  size_le i := (h.size_le i).trans (h'.size_le i)

/-- A name that was issued keeps its text. -/
theorem Below.text? (h : t.Below u) (ht : t.Sound) {n : Name} {s : String}
    (hn : t.text? n = some s) : u.text? n = some s :=
  (h.sound ht).text?_eq_some_iff.mpr (h.name? s n (ht.text?_eq_some_iff.mp hn))

theorem Full.mono (h : t.Full) (hle : t.Below u) : u.Full := by
  obtain ⟨i, hi⟩ := h
  exact ⟨i, hi.trans (hle.size_le i)⟩

theorem below_holdAll (t : Interner) (texts : List String) : t.Below (t.holdAll texts) where
  sound h := h.holdAll texts
  name? _ _ hn := (name?_holdAll texts).mpr (.inl hn)
  size_le i := size_le_holdAll texts i t

theorem below_intern {s : String} {n : Name} (h : t.intern s = .ok (n, u)) : t.Below u := by
  rw [← hold_of_intern h]
  exact below_holdAll t [s]

/-- A shard with all its texts, each of them once. -/
theorem Sound.nodup_texts (h : t.Sound) (i : Fin Name.shardCount) :
    (t.shards.get i).texts.toList.Nodup := by
  rw [get_shards]
  refine List.pairwise_iff_getElem.mpr fun a b ha hb hlt heq => ?_
  have hslot : ∀ {a : Nat} (ha : a < t.shards[i].texts.toList.length),
      t.shards[i].slotOf? t.shards[i].texts.toList[a] = some a := by
    intro a ha
    refine (h.slot_iff i _ a).mpr ?_
    rw [← Array.getElem?_toList]
    exact List.getElem?_eq_some_iff.mpr ⟨ha, rfl⟩
  have hab : some a = some b := by rw [← hslot ha, heq, hslot hb]
  have := Option.some.inj hab
  omega

theorem Sound.mem_texts (h : t.Sound) {i : Fin Name.shardCount} {s : String} :
    s ∈ (t.shards.get i).texts.toList ↔ shardOf s = i ∧ ∃ n, t.name? s = some n := by
  constructor
  · intro hs
    obtain ⟨slot, hslot⟩ := List.mem_iff_getElem?.mp hs
    rw [Array.getElem?_toList] at hslot
    have hhome := h.home i s slot hslot
    subst hhome
    exact ⟨rfl, _, by rw [name?, (h.slot_iff _ s slot).mpr hslot, Option.map_some]⟩
  · rintro ⟨rfl, n, hn⟩
    obtain ⟨slot, hslot, _⟩ := Option.map_eq_some_iff.mp hn
    have htext := (h.slot_iff _ s slot).mp hslot
    rw [← Array.getElem?_toList] at htext
    exact List.mem_of_getElem? htext

/-- Where a text finds its place in the first table there is room for it in the second. -/
theorem Covers.hasRoom (h : Covers t t') {s : String} {n : Name} (hs : t.intern s = .ok (n, u))
    (hnew : t'.name? s = none) : t'.HasRoom s := by
  have hu := h.sound.intern hs
  have hle := below_intern hs
  have hnodup : (s :: t'.shards[shardOf s].texts.toList).Nodup := by
    refine List.nodup_cons.mpr ⟨fun hmem => ?_, h.sound'.nodup_texts _⟩
    obtain ⟨_, m, hm⟩ := h.sound'.mem_texts.mp hmem
    rw [hnew] at hm
    exact absurd hm (by simp)
  have hsub : ∀ s' ∈ s :: t'.shards[shardOf s].texts.toList,
      s' ∈ u.shards[shardOf s].texts.toList := by
    intro s' hs'
    rcases List.mem_cons.mp hs' with rfl | hs'
    · exact hu.mem_texts.mpr ⟨rfl, n, name?_of_intern hs⟩
    · obtain ⟨hhome, n', hn'⟩ := h.sound'.mem_texts.mp hs'
      obtain ⟨m, hm⟩ := h.held s' n' hn'
      exact hu.mem_texts.mpr ⟨hhome, m, hle.name? s' m hm⟩
  have hcount : t'.shards[shardOf s].texts.size + 1 ≤ u.shards[shardOf s].texts.size := by
    simpa using (hnodup.subperm hsub).length_le
  exact Nat.lt_of_lt_of_le hcount (hu.small _)

theorem Covers.mono (h : Covers t t') (hle : t.Below u) : Covers u t' := by
  refine ⟨hle.sound h.sound, h.sound', fun s n' hn' => ?_⟩
  obtain ⟨n, hn⟩ := h.held s n' hn'
  exact ⟨n, hle.name? s n hn⟩

/-- A text that finds its place in the first table finds it in the second, and the tables stand to
each other as before. -/
theorem Covers.intern (h : Covers t t') {s : String} {n : Name} (hs : t.intern s = .ok (n, u)) :
    ∃ n' u', t'.intern s = .ok (n', u') ∧ Covers u u' := by
  obtain ⟨n', u', hs'⟩ : ∃ n' u', t'.intern s = .ok (n', u') := by
    cases hname : t'.name? s with
    | some n' => exact ⟨n', t', intern_known hname⟩
    | none => exact intern_of_hasRoom (h.hasRoom hs hname)
  refine ⟨n', u', hs', h.sound.intern hs, h.sound'.intern hs', fun r m' hm' => ?_⟩
  rw [← hold_of_intern hs', name?_hold] at hm'
  rcases hm' with hm' | ⟨rfl, _⟩
  · obtain ⟨m, hm⟩ := h.held r m' hm'
    exact ⟨m, (below_intern hs).name? r m hm⟩
  · exact ⟨n, name?_of_intern hs⟩

theorem full_of_intern_eq_error {s : String} {e : InternError} (hs : t.intern s = .error e) :
    t.Full := by
  refine ⟨shardOf s, Nat.le_of_not_lt fun hroom => ?_⟩
  obtain ⟨n, u, hok⟩ := intern_of_hasRoom hroom
  rw [hok] at hs
  exact absurd hs (by simp)

theorem SameText.mono {n n' : Name} (h : SameText t t' n n') (hle : t.Below u)
    (hle' : t'.Below u') : SameText u u' n n' := by
  obtain ⟨s, hs, hs'⟩ := h
  exact ⟨s, hle.name? s n hs, hle'.name? s n' hs'⟩

end Interner

open Interner in
/-- How the table that a unit shares stands to the one that it would have alone. -/
def sharing : Likeness where
  tables := Covers
  names := SameText
  spans := Eq
  lost := Full
  oneToOne := by
    intro t t' h a b a' b' hab hab'
    obtain ⟨s, hs, hs'⟩ := hab
    obtain ⟨r, hr, hr'⟩ := hab'
    exact (h.sound.name?_eq_iff hs hr).trans (h.sound'.name?_eq_iff hs' hr').symm
  spelled := by
    intro t t' h n n' hn
    obtain ⟨s, hs, hs'⟩ := hn
    rw [h.sound.lookup_eq hs, h.sound'.lookup_eq hs']
  intern_ok := by
    intro t t' s n u h hs
    obtain ⟨n', u', hs', hcovers⟩ := h.intern hs
    exact ⟨n', u', hs', hcovers, ⟨s, name?_of_intern hs, name?_of_intern hs'⟩,
      fun m m' hm => hm.mono (below_intern hs) (below_intern hs')⟩
  intern_error := fun _ hs => .inl (full_of_intern_eq_error hs)
  lost_intern := fun hs hfull => hfull.mono (below_intern hs)

/-! ## Tables only grow -/

open Interner (Below SameText below_refl below_intern below_holdAll)

theorem changes_below {a b : Context} (h : a.Changes b) : a.names.Below b.names := by
  induction h with
  | refl => exact below_refl _
  | tail _ hstep ih =>
    cases hstep with
    | intern hs => exact ih.trans (below_intern hs)
    | graph _ => exact ih

theorem Reachable.sound_names {c : Context} (hc : Reachable c) : c.names.Sound :=
  (changes_below (leads_changes hc)).sound (Interner.sound_history [])

namespace Script

/-- Being told something changes no context. -/
theorem context_tell (d : Client) (cmd : Command) :
    (tell d (cmd.run d.context)).2.context = after cmd.run d.context := by
  unfold after
  cases cmd.run d.context <;> rfl

theorem below_tell (d : Client) (cmd : Command) :
    d.context.names.Below (tell d (cmd.run d.context)).2.context.names := by
  rw [context_tell]
  exact changes_below (cmd.changes_run _)

instance {σ : Type} :
    IsPreorder (PassState σ) fun s t => s.context.names.Below t.context.names where
  refl _ := below_refl _
  trans _ _ _ h h' := h.trans h'

/-- A pass over a tree interns what its offers intern. -/
theorem below_run {σ ε : Type} {offer : Pass σ ε}
    (h : ∀ id (s : PassState σ), s.context.names.Below (after (offer id) s).context.names)
    (depth : Nat) (root : NodeId) (s : PassState σ) :
    s.context.names.Below (after (offer.run depth root) s).context.names := by
  refine Pass.moves_run (R := fun s t => s.context.names.Below t.context.names) h ?_ depth root s
  intro parent index e t
  show t.context.names.Below _
  rw [after_replaceChild]
  exact changes_below ((Command.replace parent index e).changes_run t.context)

theorem after_pass {σ ε : Type} (rewriter : NodeId → σ → Client → (Except ε Action × σ) × Client)
    (id : NodeId) (s : PassState (List Name × σ)) :
    (after (pass rewriter id) s).context =
      (rewriter id s.memory.2 ⟨s.context, s.memory.1⟩).2.context := by
  unfold after pass
  generalize rewriter id s.memory.2 ⟨s.context, s.memory.1⟩ = r
  obtain ⟨⟨answer, memory⟩, d⟩ := r
  cases answer <;> rfl

theorem context_ended {σ ε : Type} (x : PassM (List Name × σ) ε PassOutcome)
    (s : PassState (List Name × σ)) : (ended (x s)).2.context = (after x s).context := by
  unfold after
  cases x s <;> rfl

/-- **Whatever a client does, the table grows.** -/
theorem below_eval {access : Access} {α : Type} (script : Script access α) : ∀ d : Client,
    d.context.names.Below (script.eval d).2.context.names := by
  induction script with
  | done result => exact fun d => below_refl _
  | intern text next ih =>
    intro d
    rw [eval]
    exact (below_tell d (.intern text)).trans (ih _ _)
  | pause texts next ih =>
    intro d
    rw [eval]
    exact (below_holdAll d.context.names texts).trans (ih (d.wait texts))
  | ask question next ih =>
    intro d
    rw [eval]
    exact ih _ (d.hear _).2
  | order o next ih =>
    intro d
    rw [eval]
    exact (below_tell d (o.resolve d.hand)).trans (ih _ _)
  | collect root predicate memory next hpredicate ih =>
    intro d
    rw [eval]
    cases hfound : d.context.graph.collect root (search fun k m => (predicate k m).eval)
      (d, memory) with
    | error fault => exact ih _ d
    | ok answer =>
      obtain ⟨found, d₁, memory₁⟩ := answer
      refine Below.trans ?_ (ih _ d₁)
      -- looking at a kind interns nothing
      refine Graph.Like.collect_keeps (P := fun s => d.context.names.Below s.1.context.names)
        (fun k s hs => hs.trans ?_) (below_refl _) hfound
      exact hpredicate _ s.2 (s.1.look k).2
  | rewrite depth root rewriter memory next hrewriter ih =>
    intro d
    rw [eval]
    have hoffer : ∀ id (s : PassState _), s.context.names.Below
        (after (pass (fun id m => (rewriter id m).eval) id) s).context.names := by
      intro id s
      rw [after_pass]
      exact hrewriter id s.memory.2 ⟨s.context, s.memory.1⟩
    have hrun := below_run hoffer depth root ⟨d.context, d.hand, memory⟩
    rw [← context_ended] at hrun
    exact hrun.trans (ih _ _ _)

end Script

/-! ## Clients that see the same -/

/-- The answers are the same, or names in them stand for each other. -/
inductive Answer.Like (ρ : Name → Name → Prop) : Answer Name → Answer Name → Prop where
  | name {n n' : Name} : ρ n n' → Like ρ (.name n) (.name n')
  | kind {a a' : Except Fault (Option (Kind Name))} :
    Agree (Option.Rel (Kind.Like ρ)) a a' → Like ρ (.kind a) (.kind a')
  | fact (f : Fact) : Like ρ (.fact f) (.fact f)

/-- The clients of a unit that shares its table and of one that has its own. They differ in no more
than their tables do, and they have corresponding names. -/
structure Client.Twins (d e : Client) : Prop where
  context : sharing.Twins d.context e.context
  hand : List.Forall₂ (SameText d.context.names e.context.names) d.hand e.hand

namespace Client.Twins

variable {d e : Client} (h : Twins d e)

include h

/-- Corresponding names look the same. -/
theorem see {n n' : Name} (hn : SameText d.context.names e.context.names n n') :
    d.see n = e.see n' := by
  have htext : d.context.names.lookup n = e.context.names.lookup n' :=
    sharing.spelled h.context.tables n n' hn
  have hsame : (d.hand.map fun m => m == n) = e.hand.map fun m => m == n' := by
    rw [← List.forall₂_eq_eq_eq, List.forall₂_map_left_iff, List.forall₂_map_right_iff]
    refine h.hand.imp fun m m' hm => ?_
    exact Bool.eq_iff_iff.mpr (by simpa using sharing.oneToOne h.context.tables hm hn)
  rw [Client.see, Client.see, htext, hsame]

theorem spelling : d.spelling = e.spelling := by
  rw [Client.spelling, Client.spelling, ← List.forall₂_eq_eq_eq, List.forall₂_map_left_iff,
    List.forall₂_map_right_iff]
  exact h.hand.imp fun _ _ hn => h.see hn

theorem take {n? n'? : Option Name}
    (hn : Option.Rel (SameText d.context.names e.context.names) n? n'?) :
    Twins (d.take n?) (e.take n'?) := by
  refine ⟨h.context, List.rel_append h.hand ?_⟩
  cases hn with
  | none => exact .nil
  | some hn => exact .cons hn .nil

theorem look {k k' : Kind Name}
    (hk : Kind.Like (SameText d.context.names e.context.names) k k') :
    (d.look k).1 = (e.look k').1 ∧ Twins (d.look k).2 (e.look k').2 :=
  ⟨hk.map_eq fun _ _ hn => h.see hn, h.take hk.name?⟩

theorem hear {a a' : Answer Name}
    (ha : Answer.Like (SameText d.context.names e.context.names) a a') :
    (d.hear a).1 = (e.hear a').1 ∧ Twins (d.hear a).2 (e.hear a').2 := by
  cases ha with
  | fact f => exact ⟨rfl, h.take .none⟩
  | name hn => exact ⟨congrArg Answer.name (h.see hn), h.take (.some hn)⟩
  | kind ha =>
    cases ha with
    | error fault => exact ⟨rfl, h.take .none⟩
    | ok hk? =>
      cases hk? with
      | none => exact ⟨rfl, h.take .none⟩
      | some hk =>
        obtain ⟨hseen, htwins⟩ := h.look hk
        exact ⟨congrArg (fun k => Answer.kind (.ok (some k))) hseen, htwins⟩

/-- What others intern does not show. -/
theorem grow {u : Interner} (hle : d.context.names.Below u) :
    Twins { d with context := { d.context with names := u } } e := by
  have hnames : ∀ n n', SameText d.context.names e.context.names n n' →
      SameText u e.context.names n n' := fun _ _ hn => hn.mono hle (below_refl _)
  exact ⟨⟨h.context.tables.mono hle, h.context.graph.mono hnames⟩, h.hand.imp hnames⟩

omit h in
/-- The clients of contexts that are still alike. -/
theorem of_grown {c c' : Context} (h : Twins d e)
    (hc : sharing.Grown d.context e.context c c') :
    Twins { d with context := c } { e with context := c' } :=
  ⟨hc.twins, h.hand.imp hc.names⟩

end Client.Twins

/-! ## What clients are told -/

/-- **Twins answer a question alike.** -/
theorem Question.like_answer {c c' : Context} (h : sharing.Twins c c') (q : Question) :
    Answer.Like (SameText c.names c'.names) (q.answer c) (q.answer c') := by
  have hone : OneToOne (SameText c.names c'.names) := sharing.oneToOne h.tables
  have hspelled : Spelled (SameText c.names c'.names) c.names c'.names := sharing.spelled h.tables
  have hg : Graph.Like (SameText c.names c'.names) Eq c.graph c'.graph := h.graph
  cases q with
  | size => rw [answer, answer, hg.size]; exact .fact _
  | kind id =>
    refine .kind (.ok ?_)
    rw [Graph.kind?, Graph.kind?]
    rcases hg.node id with ⟨hn, hn'⟩ | ⟨n, n', hn, hn', hlike⟩
    · rw [hn, hn']
      exact .none
    · rw [hn, hn']
      exact .some hlike.kind
  | place id =>
    rw [answer, answer]
    rcases hg.node id with ⟨hn, hn'⟩ | ⟨n, n', hn, hn', hlike⟩
    · rw [hn, hn']
      exact .fact _
    · rw [hn, hn', Option.map_some, Option.map_some, hlike.span, hlike.children, hlike.parent,
        hlike.frozen]
      exact .fact _
  | describe id => rw [answer, answer, hg.describe hspelled]; exact .fact _
  | dump id => rw [answer, answer, hg.dump hspelled]; exact .fact _
  | isEqual a b => rw [answer, answer, hg.isEqual hone]; exact .fact _
  | isResolved id => rw [answer, answer, hg.isResolved]; exact .fact _
  | unresolvedNodes id => rw [answer, answer, hg.unresolvedNodes]; exact .fact _
  | typeOf id => rw [answer, answer, hg.typeOf]; exact .fact _
  | valueType id =>
    refine .kind (agree_map (hg.valueType id) fun shape? shape'? hshape => ?_)
    cases hshape with
    | none => exact .none
    | some hk => exact .some hk
  | dedup ids => rw [answer, answer, hg.dedup hone]; exact .fact _

theorem Reply.Like.answer {ρ : Name → Name → Prop} {r r' : Reply} (h : Reply.Like ρ r r') :
    Answer.Like ρ r.answer r'.answer := by
  cases h with
  | named hn => exact .name hn
  | made id => exact .fact _
  | done => exact .fact _
  | replaced old => exact .fact _

/-! ## What clients order -/

namespace Command

theorem relabel_id (cmd : Command) : cmd.relabel id = cmd := by
  unfold relabel
  split <;> simp only [Kind.map_id]

/-- Labels that stand for each other make alike commands. -/
theorem like_relabel {ρ : Name → Name → Prop} {f f' : Label → Label} (cmd : Command)
    (h : ∀ l ∈ cmd.label?, Label.Like ρ (f l) (f' l)) :
    Command.Like ρ Eq (cmd.relabel f) (cmd.relabel f') := by
  cases cmd with
  | make what span =>
    cases what with
    | begin kind => exact .make (.begin (Kind.like_map kind f f' h)) rfl
    | build plan =>
      cases plan with
      | node kind children => exact .make (.build (.node _ (Kind.like_map kind f f' h))) rfl
      | typed kind qualifiers wrapped children =>
        exact .make (.build (.typed _ _ _ (Kind.like_map kind f f' h))) rfl
      | integer sign width => exact .make (.build (.integer sign width)) rfl
      | qualified qualifiers wrapped => exact .make (.build (.qualified qualifiers wrapped)) rfl
      | selfReference record => exact .make (.build (.selfReference record)) rfl
    | refer declaration => exact .make (.refer declaration) rfl
  | intern text => exact .intern text
  | push parent e => exact .push parent e
  | freeze id => exact .freeze id
  | replace parent index e => exact .replace parent index e

end Command

theorem rel_getElem? {α β : Type} {R : α → β → Prop} {l : List α} {l' : List β}
    (h : List.Forall₂ R l l') : ∀ i : Nat, Option.Rel R l[i]? l'[i]? := by
  induction h with
  | nil => exact fun _ => .none
  | cons hab _ ih =>
    intro i
    cases i with
    | zero => exact .some hab
    | succ i => exact ih i

/-- Orders that are given with corresponding names at hand come to alike commands. -/
theorem Order.like_resolve {ρ : Name → Name → Prop} (o : Order) {hand hand' : List Name}
    (h : List.Forall₂ ρ hand hand') : Command.Like ρ Eq (o.resolve hand) (o.resolve hand') := by
  have htext : Command.Like ρ Eq o.command o.command := by
    rw [← o.command.relabel_id]
    refine o.command.like_relabel fun l hl => ?_
    cases l with
    | text s => exact .text s
    | name n => exact absurd hl (o.spelled n)
  have hheld : Option.Rel ρ (o.held.bind (hand[·]?)) (o.held.bind (hand'[·]?)) := by
    cases o.held with
    | none => exact .none
    | some i => exact rel_getElem? h i
  rw [resolve, resolve]
  generalize o.held.bind (hand[·]?) = n? at hheld
  generalize o.held.bind (hand'[·]?) = n'? at hheld
  cases hheld with
  | none => exact htext
  | some hn => exact o.command.like_relabel fun _ _ => .name hn

/-! ## Scripts -/

namespace Script

open Interner (Full)

/-- What has come to the first client has come to the second, unless the first one's table is
full. -/
def Alike {α : Type} (x y : α × Client) : Prop :=
  x.2.context.names.Full ∨ (x.1 = y.1 ∧ x.2.Twins y.2)

/-- What goes on alike after something that came out alike, comes out alike. -/
theorem alike_next {access : Access} {α β : Type} {x y : β × Client} (h : Alike x y)
    {f f' : β → Script access α}
    (hf : ∀ b (d e : Client), d.Twins e → Alike ((f b).eval d) ((f' b).eval e)) :
    Alike ((f x.1).eval x.2) ((f' y.1).eval y.2) := by
  rcases h with hfull | ⟨hsame, htwins⟩
  · exact .inl (hfull.mono (below_eval _ _))
  · rw [hsame]
    exact hf _ _ _ htwins

theorem alike_tell {d e : Client} (h : d.Twins e) {cmd cmd' : Command}
    (hcmd : Command.Like (SameText d.context.names e.context.names) Eq cmd cmd') :
    Alike (tell d (cmd.run d.context)) (tell e (cmd'.run e.context)) := by
  have hmet := Likeness.met_command h.context hcmd
  generalize cmd.run d.context = r at hmet
  generalize cmd'.run e.context = r' at hmet
  cases hmet with
  | ok hgrown hreply =>
    exact .inr ((Client.Twins.of_grown h hgrown).hear hreply.answer)
  | error hgrown => exact .inr ⟨rfl, Client.Twins.of_grown h hgrown⟩
  | lost hfull => exact .inl hfull

/-- What a pass remembers on behalf of its clients. -/
def Remembers {σ : Type} (t t' : Interner) (m m' : List Name × σ) : Prop :=
  List.Forall₂ (SameText t t') m.1 m'.1 ∧ m.2 = m'.2

theorem passCoupled_pass {σ ε : Type}
    {rewriter rewriter' : NodeId → σ → Script .writes (Except ε Action × σ)}
    (h : ∀ id m (d e : Client), d.Twins e →
      Alike ((rewriter id m).eval d) ((rewriter' id m).eval e)) (id : NodeId) :
    sharing.PassCoupled Remembers (pass (fun id m => (rewriter id m).eval) id)
      (pass (fun id m => (rewriter' id m).eval) id) := by
  constructor
  · intro s hfull
    rw [after_pass]
    exact hfull.mono (below_eval (rewriter id s.memory.2) ⟨s.context, s.memory.1⟩)
  · intro s t hst
    obtain ⟨hand, memory⟩ := hst.memory
    rw [after_pass]
    have halike := h id s.memory.2 ⟨s.context, s.memory.1⟩ ⟨t.context, t.memory.1⟩
      ⟨hst.context, hand⟩
    refine halike.imp (fun hfull => hfull) fun hboth => ?_
    rw [pass, pass, ← memory]
    generalize (rewriter id s.memory.2).eval _ = x at hboth
    generalize (rewriter' id s.memory.2).eval _ = y at hboth
    obtain ⟨⟨answer, m⟩, d⟩ := x
    obtain ⟨⟨answer', m'⟩, e⟩ := y
    obtain ⟨hsame, htwins⟩ := hboth
    obtain ⟨rfl, rfl⟩ := Prod.mk.inj hsame
    cases answer with
    | ok action => exact .ok ⟨htwins.context, htwins.hand, rfl⟩
    | error cause => exact .error ⟨htwins.context, htwins.hand, rfl⟩

/-- A pass ends alike for clients whose rewriters go on alike. -/
theorem alike_ended {σ ε : Type}
    {rewriter rewriter' : NodeId → σ → Script .writes (Except ε Action × σ)}
    (h : ∀ id m (d e : Client), d.Twins e →
      Alike ((rewriter id m).eval d) ((rewriter' id m).eval e)) {d e : Client} (hde : d.Twins e)
    (depth : Nat) (root : NodeId) (memory : σ) :
    Alike
      (ended ((pass fun id m => (rewriter id m).eval).run depth root ⟨d.context, d.hand, memory⟩))
      (ended ((pass fun id m => (rewriter' id m).eval).run depth root
        ⟨e.context, e.hand, memory⟩)) := by
  have hmeets := (sharing.passCoupled_run Remembers (passCoupled_pass h) depth root).meets
    ⟨d.context, d.hand, memory⟩ ⟨e.context, e.hand, memory⟩ ⟨hde.context, hde.hand, rfl⟩
  rw [Alike, context_ended]
  refine hmeets.imp (fun hfull => hfull) fun hmatch => ?_
  generalize (pass fun id m => (rewriter id m).eval).run depth root _ = r at hmatch
  generalize (pass fun id m => (rewriter' id m).eval).run depth root _ = r' at hmatch
  cases hmatch with
  | ok hst =>
    obtain ⟨hcontext, hhand, hmemory⟩ := hst
    exact ⟨congrArg (Prod.mk _) hmemory, hcontext, hhand⟩
  | error hst =>
    obtain ⟨hcontext, hhand, hmemory⟩ := hst
    exact ⟨congrArg (Prod.mk _) hmemory, hcontext, hhand⟩

/-- What a search comes to for its client. -/
def told {α σ : Type} (r : α × Client × σ) : (α × σ) × Client := ((r.1, r.2.2), r.2.1)

section Search

variable {σ : Type} {predicate predicate' : Kind Seen → σ → Script .reads (Bool × σ)}

theorem below_search (k : Kind Name) (s : Client × σ) :
    s.1.context.names.Below
      (search (fun k m => (predicate k m).eval) k s).2.1.context.names :=
  below_eval (predicate (s.1.look k).1 s.2) (s.1.look k).2

variable (h : ∀ k m (d e : Client), d.Twins e →
  Alike ((predicate k m).eval d) ((predicate' k m).eval e))

include h

/-- Alike kinds are judged alike. -/
theorem alike_search {s t : Client × σ} (hmemory : s.2 = t.2) (htwins : s.1.Twins t.1)
    {k k' : Kind Name} (hk : Kind.Like (SameText s.1.context.names t.1.context.names) k k') :
    Alike (told (search (fun k m => (predicate k m).eval) k s))
      (told (search (fun k m => (predicate' k m).eval) k' t)) := by
  obtain ⟨hseen, hlook⟩ := htwins.look hk
  have halike := h (s.1.look k).1 s.2 _ _ hlook
  rw [hmemory] at halike
  show Alike ((predicate (s.1.look k).1 s.2).eval (s.1.look k).2)
    ((predicate' (t.1.look k').1 t.2).eval (t.1.look k').2)
  rw [← hseen, hmemory]
  exact halike

/-- A search finds the same for clients whose predicates go on alike. -/
theorem agree_search {d e : Client} (hde : d.Twins e) (root : NodeId) (memory : σ) :
    Agree (fun a b => Alike (told a) (told b))
      (d.context.graph.collect root (search fun k m => (predicate k m).eval) (d, memory))
      (e.context.graph.collect root (search fun k m => (predicate' k m).eval) (e, memory)) := by
  let p : Graph.Search (Client × σ) := search fun k m => (predicate k m).eval
  let p' : Graph.Search (Client × σ) := search fun k m => (predicate' k m).eval
  let R (s t : Client × σ) : Prop := s.2 = t.2 ∧ s.1.Twins t.1
    ∧ d.context.names.Below s.1.context.names ∧ e.context.names.Below t.1.context.names
  have hlost : ∀ k (s : Client × σ), s.1.context.names.Full → (p k s).2.1.context.names.Full :=
    fun k s hfull => hfull.mono (below_search k s)
  have halike : ∀ k k', Kind.Like (SameText d.context.names e.context.names) k k' → ∀ s t, R s t →
      (p k s).2.1.context.names.Full ∨ ((p k s).1 = (p' k' t).1 ∧ R (p k s).2 (p' k' t).2) := by
    intro k k' hk s t hst
    obtain ⟨hmemory, htwins, hle, hle'⟩ := hst
    -- the names in the tree still correspond when the predicates have interned texts
    have hk' := hk.mono fun _ _ hn => hn.mono hle hle'
    refine (alike_search h hmemory htwins hk').imp (fun hfull => hfull) fun hboth => ?_
    have hparts := Prod.ext_iff.mp hboth.1
    exact ⟨hparts.1, hparts.2, hboth.2, hle.trans (below_search k s),
      hle'.trans (below_search k' t)⟩
  have hstart : R (d, memory) (e, memory) := ⟨rfl, hde, below_refl _, below_refl _⟩
  have hcollect := hde.context.graph.collect (R := R) hlost halike root hstart
  refine hcollect.imp fun a b hab => hab.imp (fun hfull => hfull) fun hboth => ?_
  obtain ⟨hfound, hmemory, htwins, _⟩ := hboth
  exact ⟨Prod.ext hfound hmemory, htwins⟩

end Search

/-- **What a client does comes out alike**, whether or not others are there. -/
theorem alike_eval {access : Access} {α : Type} (script : Script access α) : ∀ {d e : Client},
    d.Twins e → Alike (script.eval d) (script.alone.eval e) := by
  induction script with
  | done result => exact fun h => .inr ⟨rfl, h⟩
  | intern text next ih =>
    intro d e h
    rw [alone, eval, eval]
    exact alike_next (alike_tell h (.intern text)) fun seen _ _ => ih seen
  | pause texts next ih =>
    intro d e h
    rw [alone, eval]
    exact ih (h.grow (below_holdAll d.context.names texts))
  | ask question next ih =>
    intro d e h
    rw [alone, eval, eval]
    exact alike_next (.inr (h.hear (question.like_answer h.context))) fun seen _ _ => ih seen
  | order o next ih =>
    intro d e h
    rw [alone, eval, eval]
    exact alike_next (alike_tell h (o.like_resolve h.hand)) fun seen _ _ => ih seen
  | collect root predicate memory next hpredicate ih =>
    intro d e h
    rw [alone, eval, eval]
    have hfound := agree_search (fun k m _ _ => hpredicate k m) h root memory
    generalize d.context.graph.collect root _ _ = r at hfound
    generalize e.context.graph.collect root _ _ = r' at hfound
    cases hfound with
    | error fault => exact ih (.error fault) h
    | ok halike => exact alike_next (f := fun r => next (.ok r)) halike fun r _ _ => ih (.ok r)
  | rewrite depth root rewriter memory next hrewriter ih =>
    intro d e h
    rw [alone, eval, eval]
    exact alike_next (f := fun r => next r.1 r.2)
      (alike_ended (fun id m _ _ => hrewriter id m) h depth root memory)
      fun r _ _ => ih r.1 r.2

end Script

end SyntaxGraph
