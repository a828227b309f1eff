import Mathlib.Data.List.Forall2
import Mathlib.Data.List.ProdSigma
import SyntaxGraph.Equality
import SyntaxGraph.Proofs.Ownership

/-!
# Structural equality is bisimilarity

Two nodes are bisimilar when some relation holds between them that is a
bisimulation: nodes it relates have the same kind, and their children are related
one by one. Spans, owners and marks play no part, and neither does the
difference between an owned child and a reference.

Comparing two nodes assumes that the pairs under comparison are equal, and drops
the assumption once their comparison is over. That an assumption never hides a
difference is seen by counting how far away the difference is. If nodes can be
told apart at all they can be told apart in some number of steps; a pair that is
assumed and leads to a difference would, compared by itself, have shown the
difference with one step to spare.
-/

namespace SyntaxGraph.Graph

variable {g : Graph}

/-! ## Bisimilarity -/

/-- The nodes have the same kind, and the relation holds between their children one by one. -/
def Alike (g : Graph) (R : NodeId → NodeId → Prop) (a b : NodeId) : Prop :=
  ∃ x y, g.node? a = some x ∧ g.node? b = some y ∧ x.kind = y.kind
    ∧ List.Forall₂ R x.targets y.targets

/-- Nodes that the relation holds between are alike. -/
def IsBisimulation (g : Graph) (R : NodeId → NodeId → Prop) : Prop :=
  ∀ a b, R a b → g.Alike R a b

/-- Some bisimulation holds between the nodes. -/
def Bisimilar (g : Graph) (a b : NodeId) : Prop := ∃ R, g.IsBisimulation R ∧ R a b

theorem Alike.mono {R S : NodeId → NodeId → Prop} (hRS : ∀ a b, R a b → S a b) {a b : NodeId}
    (h : g.Alike R a b) : g.Alike S a b := by
  obtain ⟨x, y, hx, hy, hkind, htargets⟩ := h
  exact ⟨x, y, hx, hy, hkind, htargets.imp hRS⟩

/-- **Bisimilarity is itself a bisimulation.** -/
theorem isBisimulation_bisimilar : g.IsBisimulation g.Bisimilar := by
  intro a b h
  obtain ⟨R, hR, hab⟩ := h
  exact (hR a b hab).mono fun c d hcd => ⟨R, hR, hcd⟩

theorem targets_mem (h : Closed g) {id : NodeId} {node : Node} (hn : g.node? id = some node) :
    ∀ target ∈ node.targets, target ∈ g := by
  intro target ht
  obtain ⟨e, he, rfl⟩ := List.mem_map.mp ht
  exact h id e (edges_of_node? hn ▸ he)

theorem bisimilar_refl (h : Closed g) {a : NodeId} (ha : a ∈ g) : g.Bisimilar a a := by
  refine ⟨fun c d => c = d ∧ c ∈ g, ?_, rfl, ha⟩
  intro c d hcd
  obtain ⟨rfl, hc⟩ := hcd
  obtain ⟨node, hn⟩ := mem_iff_node?.mp hc
  exact ⟨node, node, hn, hn, rfl, List.forall₂_same.mpr fun t ht => ⟨rfl, targets_mem h hn t ht⟩⟩

theorem bisimilar_symm {a b : NodeId} (h : g.Bisimilar a b) : g.Bisimilar b a := by
  obtain ⟨R, hR, hab⟩ := h
  refine ⟨fun c d => R d c, fun c d hdc => ?_, hab⟩
  obtain ⟨x, y, hx, hy, hkind, htargets⟩ := hR d c hdc
  exact ⟨y, x, hy, hx, hkind.symm, htargets.flip⟩

theorem forall₂_comp {R S : NodeId → NodeId → Prop} {l m n : List NodeId}
    (h : List.Forall₂ R l m) (h' : List.Forall₂ S m n) : List.Forall₂ (Relation.Comp R S) l n := by
  induction h generalizing n with
  | nil =>
    cases h'
    exact .nil
  | cons hab _ ih =>
    cases h' with
    | cons hbc hrest => exact .cons ⟨_, hab, hbc⟩ (ih hrest)

theorem bisimilar_trans {a b c : NodeId} (hab : g.Bisimilar a b) (hbc : g.Bisimilar b c) :
    g.Bisimilar a c := by
  refine ⟨fun d f => ∃ e, g.Bisimilar d e ∧ g.Bisimilar e f, ?_, b, hab, hbc⟩
  intro d f hdf
  obtain ⟨e, hde, hef⟩ := hdf
  obtain ⟨x, y, hx, hy, hxy, hfirst⟩ := isBisimulation_bisimilar d e hde
  obtain ⟨y', z, hy', hz, hyz, hsecond⟩ := isBisimulation_bisimilar e f hef
  obtain rfl : y = y' := Option.some.inj (hy.symm.trans hy')
  exact ⟨x, z, hx, hz, hxy.trans hyz, forall₂_comp hfirst hsecond⟩

/-! ## Similar for a number of steps -/

/-- No difference is met within so many steps from the two nodes. -/
def Similar (g : Graph) : Nat → NodeId → NodeId → Prop
  | 0, _, _ => True
  | n + 1, a, b => g.Alike (g.Similar n) a b

theorem similar_of_bisimilar (n : Nat) : ∀ {a b : NodeId}, g.Bisimilar a b → g.Similar n a b := by
  induction n with
  | zero => intro a b _; trivial
  | succ n ih => intro a b h; exact (isBisimulation_bisimilar a b h).mono fun _ _ => ih

/-- **Nodes are bisimilar if no number of steps tells them apart.** -/
theorem bisimilar_of_similar {a b : NodeId} (h : ∀ n, g.Similar n a b) : g.Bisimilar a b := by
  refine ⟨fun c d => ∀ n, g.Similar n c d, fun c d hcd => ?_, h⟩
  obtain ⟨x, y, hx, hy, hkind, hzero⟩ := hcd 1
  refine ⟨x, y, hx, hy, hkind, List.forall₂_iff_zip.mpr ⟨hzero.length_eq, fun hp n => ?_⟩⟩
  obtain ⟨x', y', hx', hy', _, htargets⟩ := hcd (n + 1)
  obtain rfl : x = x' := Option.some.inj (hx.symm.trans hx')
  obtain rfl : y = y' := Option.some.inj (hy.symm.trans hy')
  exact List.forall₂_zip htargets hp

theorem similar_pred (n : Nat) : ∀ {a b : NodeId}, g.Similar (n + 1) a b → g.Similar n a b := by
  induction n with
  | zero => intro a b _; trivial
  | succ n ih => intro a b h; exact Alike.mono (fun _ _ => ih) h

theorem similar_symm (n : Nat) : ∀ {a b : NodeId}, g.Similar n a b → g.Similar n b a := by
  induction n with
  | zero => intro a b _; trivial
  | succ n ih =>
    intro a b h
    obtain ⟨x, y, hx, hy, hkind, htargets⟩ := h
    exact ⟨y, x, hy, hx, hkind.symm, (htargets.imp fun _ _ => ih).flip⟩

theorem similar_of {n : Nat} {a b : NodeId} :
    g.Similar n (NodePair.of a b).1 (NodePair.of a b).2 ↔ g.Similar n a b := by
  unfold NodePair.of
  split
  · exact Iff.rfl
  · exact ⟨similar_symm n, similar_symm n⟩

/-! ## One step of a comparison -/

/-- The pairs are looked at under the same assumptions, as each comparison leaves the list as it
found it. -/
theorem allPairs_eq_ok {σ ε : Type} {compare : NodeId → NodeId → σ → Except ε (Bool × σ)}
    (hkeep : ∀ {a b s answer s'}, compare a b s = .ok (answer, s') → s' = s)
    {pairs : List (NodeId × NodeId)} {s s' : σ} {answer : Bool} :
    allPairs compare pairs s = .ok (answer, s') →
      s' = s ∧ (answer = true → ∀ p ∈ pairs, compare p.1 p.2 s = .ok (true, s))
        ∧ (answer = false → ∃ p ∈ pairs, compare p.1 p.2 s = .ok (false, s)) := by
  induction pairs generalizing s with
  | nil =>
    intro h
    simp only [allPairs, Except.ok.injEq, Prod.mk.injEq] at h
    obtain ⟨rfl, rfl⟩ := h
    simp
  | cons p rest ih =>
    obtain ⟨a, b⟩ := p
    intro h
    rw [allPairs] at h
    cases hp : compare a b s with
    | error fault => simp [hp] at h
    | ok result =>
      obtain ⟨equal, t⟩ := result
      obtain rfl := hkeep hp
      rw [hp] at h
      cases equal with
      | false =>
        simp only [Except.ok.injEq, Prod.mk.injEq] at h
        obtain ⟨rfl, rfl⟩ := h
        exact ⟨rfl, nofun, fun _ => ⟨(a, b), List.mem_cons_self, hp⟩⟩
      | true =>
        obtain ⟨rfl, hall, hsome⟩ := ih h
        refine ⟨rfl, fun ht => List.forall_mem_cons.mpr ⟨hp, hall ht⟩, fun hf => ?_⟩
        obtain ⟨q, hq, hdiffer⟩ := hsome hf
        exact ⟨q, List.mem_cons_of_mem _ hq, hdiffer⟩

/-- What a comparison can go by, with the pairs of the list assumed. -/
inductive Verdict (g : Graph) (depth : Nat) (a b : NodeId) (assumed : List NodePair) :
    Bool → Prop where
  /-- A node equals itself. -/
  | same : a = b → Verdict g depth a b assumed true
  /-- The pair is under comparison already. -/
  | assumed : NodePair.of a b ∈ assumed → Verdict g depth a b assumed true
  /-- The nodes differ at first sight. -/
  | differ {x y : Node} : g.node? a = some x → g.node? b = some y →
    (x.kind = y.kind → x.targets.length ≠ y.targets.length) → Verdict g depth a b assumed false
  /-- The children decide, with the pair assumed. -/
  | below {x y : Node} {s : List NodePair} {answer : Bool} : g.node? a = some x →
    g.node? b = some y → x.kind = y.kind → x.targets.length = y.targets.length →
    allPairs (g.isEqualWithin depth) (x.targets.zip y.targets) (NodePair.of a b :: assumed)
      = .ok (answer, s) → Verdict g depth a b assumed answer

@[simp] theorem length_targets (node : Node) : node.targets.length = node.children.length := by
  simp [Node.targets]

theorem isEqualWithin_succ {depth : Nat} {a b : NodeId} {assumed s : List NodePair} {answer : Bool}
    (hkeep : ∀ {c d s answer s'}, g.isEqualWithin depth c d s = .ok (answer, s') → s' = s)
    (h : g.isEqualWithin (depth + 1) a b assumed = .ok (answer, s)) :
    s = assumed ∧ g.Verdict depth a b assumed answer := by
  rw [isEqualWithin] at h
  by_cases hab : a = b
  · simp only [hab, if_true, Except.ok.injEq, Prod.mk.injEq] at h
    obtain ⟨rfl, rfl⟩ := h
    exact ⟨rfl, .same hab⟩
  rw [if_neg hab] at h
  cases hx : g.node? a with
  | none => simp [hx] at h
  | some x =>
  cases hy : g.node? b with
  | none => simp [hx, hy] at h
  | some y =>
    simp only [hx, hy] at h
    split at h
    · rename_i hkind
      simp only [Except.ok.injEq, Prod.mk.injEq] at h
      obtain ⟨rfl, rfl⟩ := h
      exact ⟨rfl, .differ hx hy fun he => absurd he hkind⟩
    · rename_i hkind
      split at h
      · rename_i hlen
        simp only [Except.ok.injEq, Prod.mk.injEq] at h
        obtain ⟨rfl, rfl⟩ := h
        exact ⟨rfl, .differ hx hy fun _ => by simpa using hlen⟩
      · rename_i hlen
        split at h
        · rename_i hmem
          simp only [Except.ok.injEq, Prod.mk.injEq] at h
          obtain ⟨rfl, rfl⟩ := h
          exact ⟨rfl, .assumed hmem⟩
        · split at h
          · rename_i hbelow
            simp only [Except.ok.injEq, Prod.mk.injEq] at h
            obtain ⟨rfl, rfl⟩ := h
            obtain rfl := (allPairs_eq_ok hkeep hbelow).1
            refine ⟨List.erase_cons_head _ _, .below hx hy (not_not.mp hkind) ?_ hbelow⟩
            simpa using hlen
          · exact absurd h (by simp)

/-- **A comparison leaves the assumptions as it found them.** -/
theorem isEqualWithin_keeps (depth : Nat) : ∀ {a b : NodeId} {assumed s : List NodePair}
    {answer : Bool}, g.isEqualWithin depth a b assumed = .ok (answer, s) → s = assumed := by
  induction depth with
  | zero => intro a b assumed s answer h; simp [isEqualWithin] at h
  | succ depth ih => intro a b assumed s answer h; exact (isEqualWithin_succ ih h).1

theorem verdict_of_isEqualWithin {depth : Nat} {a b : NodeId} {assumed s : List NodePair}
    {answer : Bool} (h : g.isEqualWithin (depth + 1) a b assumed = .ok (answer, s)) :
    g.Verdict depth a b assumed answer :=
  (isEqualWithin_succ (isEqualWithin_keeps depth) h).2

/-! ## The answer is right -/

/-- **Assuming pairs never hides a difference.** If no assumed pair differs within so many steps,
two nodes that compare equal do not either. -/
theorem similar_of_isEqualWithin (hclosed : Closed g) (n : Nat) : ∀ {depth : Nat} {a b : NodeId}
    {assumed s : List NodePair}, a ∈ g → b ∈ g → (∀ p ∈ assumed, g.Similar n p.1 p.2) →
      g.isEqualWithin depth a b assumed = .ok (true, s) → g.Similar n a b := by
  induction n with
  | zero => intro depth a b assumed s _ _ _ _; trivial
  | succ n ih =>
    intro depth a b assumed s ha hb hassumed h
    cases depth with
    | zero => simp [isEqualWithin] at h
    | succ depth =>
    cases verdict_of_isEqualWithin h with
    | same hab =>
      subst hab
      exact similar_of_bisimilar _ (bisimilar_refl hclosed ha)
    | assumed hmem => exact similar_of.mp (hassumed _ hmem)
    | below hx hy hkind hlen hbelow =>
      rename_i x y _
      have hweak : ∀ p ∈ assumed, g.Similar n p.1 p.2 := fun p hp => similar_pred n (hassumed p hp)
      -- the pair itself: this very comparison shows it to be similar for one step less
      have hpair : ∀ p ∈ NodePair.of a b :: assumed, g.Similar n p.1 p.2 :=
        List.forall_mem_cons.mpr ⟨similar_of.mpr (ih ha hb hweak h), hweak⟩
      obtain ⟨_, hall, _⟩ := allPairs_eq_ok (isEqualWithin_keeps depth) hbelow
      refine ⟨x, y, hx, hy, hkind, List.forall₂_iff_zip.mpr ⟨hlen, fun {c d} hcd => ?_⟩⟩
      have hc : c ∈ g := targets_mem hclosed hx c (List.of_mem_zip hcd).1
      have hd : d ∈ g := targets_mem hclosed hy d (List.of_mem_zip hcd).2
      exact ih hc hd hpair (hall rfl (c, d) hcd)

theorem not_isEqualWithin_of_bisimilar (depth : Nat) : ∀ {a b : NodeId}
    {assumed s : List NodePair}, g.Bisimilar a b →
      g.isEqualWithin depth a b assumed ≠ .ok (false, s) := by
  induction depth with
  | zero => intro a b assumed s _ h; simp [isEqualWithin] at h
  | succ depth ih =>
    intro a b assumed s hab h
    obtain ⟨x, y, hx, hy, hkind, htargets⟩ := isBisimulation_bisimilar a b hab
    cases verdict_of_isEqualWithin h with
    | differ hx' hy' hdiffer =>
      -- bisimilar nodes do not differ at first sight
      obtain rfl := Option.some.inj (hx.symm.trans hx')
      obtain rfl := Option.some.inj (hy.symm.trans hy')
      exact hdiffer hkind htargets.length_eq
    | below hx' hy' _ _ hbelow =>
      obtain rfl := Option.some.inj (hx.symm.trans hx')
      obtain rfl := Option.some.inj (hy.symm.trans hy')
      obtain ⟨_, _, hsome⟩ := allPairs_eq_ok (isEqualWithin_keeps depth) hbelow
      obtain ⟨⟨c, d⟩, hcd, hdiffer⟩ := hsome rfl
      exact ih (List.forall₂_zip htargets hcd) hdiffer

/-! ## The comparison ends -/

theorem allPairs_ends {σ ε : Type} {compare : NodeId → NodeId → σ → Except ε (Bool × σ)} {s : σ}
    {pairs : List (NodeId × NodeId)}
    (h : ∀ p ∈ pairs, ∃ answer, compare p.1 p.2 s = .ok (answer, s)) :
    ∃ answer, allPairs compare pairs s = .ok (answer, s) := by
  induction pairs with
  | nil => exact ⟨true, rfl⟩
  | cons p rest ih =>
    obtain ⟨a, b⟩ := p
    obtain ⟨hp, hrest⟩ := List.forall_mem_cons.mp h
    obtain ⟨answer, hp⟩ := hp
    rw [allPairs, hp]
    cases answer with
    | false => exact ⟨false, rfl⟩
    | true => exact ih hrest

theorem of_mem {a b : NodeId} (ha : a ∈ g) (hb : b ∈ g) :
    (NodePair.of a b).1 ∈ g ∧ (NodePair.of a b).2 ∈ g := by
  unfold NodePair.of
  split
  · exact ⟨ha, hb⟩
  · exact ⟨hb, ha⟩

/-- The pairs of nodes that are not assumed. -/
def unassumed (g : Graph) (assumed : List NodePair) : List NodePair :=
  (g.ids ×ˢ g.ids).filter fun p => !assumed.contains p

theorem length_unassumed_le (g : Graph) (assumed : List NodePair) :
    (g.unassumed assumed).length ≤ g.size * g.size := by
  have h := List.length_filter_le (fun p => !assumed.contains p) (g.ids ×ˢ g.ids)
  simpa [unassumed, ids, List.length_product] using h

/-- Assuming a pair of nodes leaves fewer pairs that are not assumed. -/
theorem length_unassumed_cons_lt {a b : NodeId} {assumed : List NodePair} (ha : a ∈ g)
    (hb : b ∈ g) (hnew : NodePair.of a b ∉ assumed) :
    (g.unassumed (NodePair.of a b :: assumed)).length < (g.unassumed assumed).length := by
  have hfilter : g.unassumed (NodePair.of a b :: assumed) =
      (g.unassumed assumed).filter fun p => p ≠ NodePair.of a b := by
    rw [unassumed, unassumed, List.filter_filter]
    refine List.filter_congr fun p _ => ?_
    simp
  obtain ⟨hfirst, hsecond⟩ := of_mem ha hb
  have hpair : NodePair.of a b ∈ g.unassumed assumed :=
    List.mem_filter.mpr ⟨List.mem_product.mpr ⟨mem_ids.mpr hfirst, mem_ids.mpr hsecond⟩,
      by simpa using hnew⟩
  rw [hfilter]
  exact List.length_filter_lt_length_iff_exists.mpr ⟨_, hpair, by simp⟩

/-- Every level of the comparison assumes one more of the pairs that there are. -/
theorem isEqualWithin_ends (hclosed : Closed g) (depth : Nat) : ∀ {a b : NodeId}
    {assumed : List NodePair}, a ∈ g → b ∈ g → (g.unassumed assumed).length < depth →
      ∃ answer, g.isEqualWithin depth a b assumed = .ok (answer, assumed) := by
  induction depth with
  | zero => exact fun _ _ hlt => absurd hlt (Nat.not_lt_zero _)
  | succ depth ih =>
    intro a b assumed ha hb hlt
    rw [isEqualWithin]
    obtain ⟨x, hx⟩ := mem_iff_node?.mp ha
    obtain ⟨y, hy⟩ := mem_iff_node?.mp hb
    split
    · exact ⟨true, rfl⟩
    rw [hx, hy]
    dsimp only
    split
    · exact ⟨false, rfl⟩
    split
    · exact ⟨false, rfl⟩
    split
    · exact ⟨true, rfl⟩
    · -- the pair is a new one, so there are fewer to come
      rename_i hnew
      have hfewer := length_unassumed_cons_lt ha hb hnew
      have hends : ∀ p ∈ x.targets.zip y.targets, ∃ answer, g.isEqualWithin depth p.1 p.2
          (NodePair.of a b :: assumed) = .ok (answer, NodePair.of a b :: assumed) := by
        intro p hcd
        obtain ⟨c, d⟩ := p
        have hc : c ∈ g := targets_mem hclosed hx c (List.of_mem_zip hcd).1
        have hd : d ∈ g := targets_mem hclosed hy d (List.of_mem_zip hcd).2
        exact ih hc hd (by omega)
      obtain ⟨answer, hbelow⟩ := allPairs_ends hends
      rw [hbelow]
      dsimp only
      exact ⟨answer, by rw [List.erase_cons_head]⟩

/-- **A comparison ends whatever is assumed**, and leaves the assumptions as they are. -/
theorem isEqualFrom_ends (hclosed : Closed g) {a b : NodeId} (ha : a ∈ g) (hb : b ∈ g)
    (assumed : List NodePair) : ∃ answer, g.isEqualFrom a b assumed = .ok (answer, assumed) := by
  have hle := length_unassumed_le g assumed
  exact isEqualWithin_ends hclosed g.pairLimit ha hb (by rw [pairLimit]; omega)

/-- **A comparison ends, and its answer is whether the nodes are bisimilar.** -/
theorem isEqual_eq_ok (hclosed : Closed g) {a b : NodeId} (ha : a ∈ g) (hb : b ∈ g) :
    ∃ answer, g.isEqual a b = .ok answer ∧ (answer = true ↔ g.Bisimilar a b) := by
  obtain ⟨answer, h⟩ := isEqualFrom_ends hclosed ha hb []
  refine ⟨answer, by simp [isEqual, h, Except.map], ?_, ?_⟩
  · rintro rfl
    exact bisimilar_of_similar fun n => similar_of_isEqualWithin hclosed n ha hb (by simp) h
  · intro hab
    cases answer with
    | true => rfl
    | false => exact absurd h (not_isEqualWithin_of_bisimilar _ hab)

theorem isEqual_eq_true_iff (hclosed : Closed g) {a b : NodeId} (ha : a ∈ g) (hb : b ∈ g) :
    g.isEqual a b = .ok true ↔ g.Bisimilar a b := by
  obtain ⟨answer, h, hiff⟩ := isEqual_eq_ok hclosed ha hb
  rw [h, Except.ok.injEq, hiff]

/-! ## Which nodes can be compared -/

/-- The nodes can be compared: they are nodes of the graph, or one and the same id. -/
def Comparable (g : Graph) (a b : NodeId) : Prop := a = b ∨ a ∈ g ∧ b ∈ g

theorem isEqualFrom_self (g : Graph) (a : NodeId) (assumed : List NodePair) :
    g.isEqualFrom a a assumed = .ok (true, assumed) := by
  rw [isEqualFrom, pairLimit, isEqualWithin, if_pos rfl]

theorem comparable_of_isEqualFrom {a b : NodeId} {assumed : List NodePair}
    {result : Bool × List NodePair} (h : g.isEqualFrom a b assumed = .ok result) :
    g.Comparable a b := by
  by_cases hab : a = b
  · exact .inl hab
  · rw [isEqualFrom, pairLimit, isEqualWithin, if_neg hab] at h
    cases hx : g.node? a with
    | none => simp [hx] at h
    | some x =>
      cases hy : g.node? b with
      | none => simp [hx, hy] at h
      | some y => exact .inr ⟨mem_iff_node?.mpr ⟨x, hx⟩, mem_iff_node?.mpr ⟨y, hy⟩⟩

theorem isEqual_eq_ok_iff {a b : NodeId} {answer : Bool} :
    g.isEqual a b = .ok answer ↔ g.isEqualFrom a b [] = .ok (answer, []) := by
  rw [isEqual]
  cases h : g.isEqualFrom a b [] with
  | error fault => simp [Except.map]
  | ok result =>
    obtain ⟨found, s⟩ := result
    obtain rfl := isEqualWithin_keeps _ h
    simp [Except.map]

theorem comparable_of_isEqual {a b : NodeId} {answer : Bool} (h : g.isEqual a b = .ok answer) :
    g.Comparable a b :=
  comparable_of_isEqualFrom (isEqual_eq_ok_iff.mp h)

/-- Nodes that can be compared can be compared under any assumptions. -/
theorem Comparable.isEqualFrom (hclosed : Closed g) {a b : NodeId} (h : g.Comparable a b)
    (assumed : List NodePair) : ∃ answer, g.isEqualFrom a b assumed = .ok (answer, assumed) := by
  rcases h with rfl | ⟨ha, hb⟩
  · exact ⟨true, isEqualFrom_self g a assumed⟩
  · exact isEqualFrom_ends hclosed ha hb assumed

/-- Which of two nodes comes first makes no difference. -/
theorem isEqual_swap (hclosed : Closed g) {a b : NodeId} {answer : Bool}
    (h : g.isEqual a b = .ok answer) : g.isEqual b a = .ok answer := by
  rcases comparable_of_isEqual h with rfl | ⟨ha, hb⟩
  · exact h
  · obtain ⟨answer', h', hiff'⟩ := isEqual_eq_ok hclosed hb ha
    obtain ⟨answer'', h'', hiff⟩ := isEqual_eq_ok hclosed ha hb
    obtain rfl := Except.ok.inj (h.symm.trans h'')
    rw [h', Except.ok.injEq, Bool.eq_iff_iff, hiff, hiff']
    exact ⟨bisimilar_symm, bisimilar_symm⟩

/-! ## Structural equality -/

/-- Structural equality is what it should be between the nodes of a graph. -/
structure EqualityExact (g : Graph) : Prop where
  /-- The question has an answer, and it is whether the nodes are bisimilar. -/
  decides : ∀ a ∈ g, ∀ b ∈ g,
    ∃ answer, g.isEqual a b = .ok answer ∧ (answer = true ↔ g.Bisimilar a b)
  /-- A node equals itself. -/
  refl : ∀ a ∈ g, g.isEqual a a = .ok true
  /-- Which node comes first does not matter. -/
  symm : ∀ a ∈ g, ∀ b ∈ g, g.isEqual a b = .ok true → g.isEqual b a = .ok true
  /-- Nodes that equal the same node equal each other. -/
  trans : ∀ a ∈ g, ∀ b ∈ g, ∀ c ∈ g,
    g.isEqual a b = .ok true → g.isEqual b c = .ok true → g.isEqual a c = .ok true

theorem equalityExact_of_closed (h : Closed g) : EqualityExact g where
  decides _ ha _ hb := isEqual_eq_ok h ha hb
  refl _ ha := (isEqual_eq_true_iff h ha ha).mpr (bisimilar_refl h ha)
  symm a ha b hb hab := by
    rw [isEqual_eq_true_iff h ha hb] at hab
    exact (isEqual_eq_true_iff h hb ha).mpr (bisimilar_symm hab)
  trans a ha b hb c hc hab hbc := by
    rw [isEqual_eq_true_iff h ha hb] at hab
    rw [isEqual_eq_true_iff h hb hc] at hbc
    exact (isEqual_eq_true_iff h ha hc).mpr (bisimilar_trans hab hbc)

/-- **Structural equality is bisimilarity** where edges lead to nodes, and so in every context that
calls can lead to. -/
theorem structural_equality :
    (∀ g : Graph, Closed g → EqualityExact g) ∧ ∀ c, Reachable c → EqualityExact c.graph :=
  ⟨fun _ h => equalityExact_of_closed h, fun _ h => equalityExact_of_closed (closed_reachable h)⟩

/-- Two records with a field of each other's type, next to the record with a field of its own. -/
def unrolledRecord : List Command := linkedRecord ++ [
  .make (.begin (.type .struct)) .dummy,
  .make (.begin (.type .struct)) .dummy,
  .make (.build (.node (.qualifiedType .none) [.ref ⟨5⟩])) .dummy,
  .make (.build (.node (.declaration (.field (.text "next"))) [.owned ⟨6⟩])) .dummy,
  .make (.build (.node (.qualifiedType .none) [.ref ⟨4⟩])) .dummy,
  .make (.build (.node (.declaration (.field (.text "next"))) [.owned ⟨8⟩])) .dummy,
  .push ⟨4⟩ (.owned ⟨7⟩),
  .push ⟨5⟩ (.owned ⟨9⟩)]

/-- Unrolled once, the record is still the same. -/
theorem structural_equality_unrolledRecord :
    Reachable (runAll unrolledRecord .fresh)
      ∧ EqualityExact (runAll unrolledRecord .fresh).graph
      ∧ (runAll unrolledRecord .fresh).graph.Bisimilar ⟨0⟩ ⟨4⟩ := by
  have hreach : Reachable (runAll unrolledRecord .fresh) := leads_runAll _ (.refl _)
  have hexact := structural_equality.2 _ hreach
  obtain ⟨answer, h, hiff⟩ := hexact.decides ⟨0⟩ (by decide +kernel) ⟨4⟩ (by decide +kernel)
  have htrue : (runAll unrolledRecord .fresh).graph.isEqual ⟨0⟩ ⟨4⟩ = .ok true := by decide +kernel
  exact ⟨hreach, hexact, hiff.mp (Except.ok.inj (h.symm.trans htrue))⟩

end SyntaxGraph.Graph
