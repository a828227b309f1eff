import Mathlib.Data.List.Nodup
import Mathlib.Algebra.BigOperators.Fin
import SyntaxGraph.Interner

/-!
# Names and texts are one to one

The table keeps each text twice over, in its slot and in a map from texts to
slots; it counts the texts apart from both; and it hands out words in which the
shard and the slot are packed. The invariant `Sound` says that the four agree. It
needs no look at the history: a text that is new goes to the end of its shard and
nothing else happens, so what was there before is there afterwards.

That two texts never share a name rests on the shard being read off the text. In
one shard slots tell texts apart, and a text can only be in the shard it hashes
to.
-/

namespace SyntaxGraph

/-! ## Shard and slot in one word -/

namespace Name

/-- How many slots a shard can have. -/
def slotCount : Nat := 2 ^ 28

theorem shard_lt (n : Name) : n.shard < shardCount := by
  have hraw : n.raw.toNat < 2 ^ 32 := n.raw.toNat_lt
  rw [shard, shardCount, UInt32.toNat_shiftRight, Nat.shiftRight_eq_div_pow]
  exact Nat.div_lt_of_lt_mul hraw

theorem slot_eq_mod (n : Name) : n.slot = n.raw.toNat % 2 ^ 28 := by
  rw [slot, UInt32.toNat_and]
  exact Nat.and_two_pow_sub_one_eq_mod n.raw.toNat 28

theorem shard_eq_div (n : Name) : n.shard = n.raw.toNat / 2 ^ 28 := by
  rw [shard, UInt32.toNat_shiftRight, Nat.shiftRight_eq_div_pow]
  rfl

/-- The shard stands above the slot. -/
theorem toNat_ofParts {shard slot : Nat} (hshard : shard < shardCount) (hslot : slot < slotCount) :
    (ofParts (.ofNat shard) (.ofNat slot)).raw.toNat = shard * 2 ^ 28 + slot := by
  have hshard' : shard < 16 := hshard
  have hslot' : slot < 2 ^ 28 := hslot
  have hword : shard * 2 ^ 28 < 2 ^ 32 := by omega
  have hupper : (UInt32.ofNat shard).toNat = shard :=
    UInt32.toNat_ofNat_of_lt' (by rw [UInt32.size]; omega)
  have hlower : (UInt32.ofNat slot).toNat = slot :=
    UInt32.toNat_ofNat_of_lt' (by rw [UInt32.size]; omega)
  calc (ofParts (.ofNat shard) (.ofNat slot)).raw.toNat
      = (shard <<< 28 % 2 ^ 32) ||| slot := by
        rw [ofParts, UInt32.toNat_or, UInt32.toNat_shiftLeft, hupper, hlower]
        rfl
    _ = shard <<< 28 ||| slot := by rw [Nat.shiftLeft_eq, Nat.mod_eq_of_lt hword]
    _ = shard <<< 28 + slot := (Nat.shiftLeft_add_eq_or_of_lt hslot' shard).symm
    _ = shard * 2 ^ 28 + slot := by rw [Nat.shiftLeft_eq]

theorem shard_ofParts {shard slot : Nat} (hshard : shard < shardCount) (hslot : slot < slotCount) :
    (ofParts (.ofNat shard) (.ofNat slot)).shard = shard := by
  have hslot' : slot < 2 ^ 28 := hslot
  rw [shard_eq_div, toNat_ofParts hshard hslot]
  omega

theorem slot_ofParts {shard slot : Nat} (hshard : shard < shardCount) (hslot : slot < slotCount) :
    (ofParts (.ofNat shard) (.ofNat slot)).slot = slot := by
  have hslot' : slot < 2 ^ 28 := hslot
  rw [slot_eq_mod, toNat_ofParts hshard hslot]
  omega

theorem slot_lt (n : Name) : n.slot < slotCount := by
  rw [slot_eq_mod, slotCount]
  exact Nat.mod_lt _ (Nat.two_pow_pos 28)

/-- A name is made of its own parts. -/
theorem ofParts_self (n : Name) : ofParts (.ofNat n.shard) (.ofNat n.slot) = n := by
  have hraw : (ofParts (.ofNat n.shard) (.ofNat n.slot)).raw.toNat = n.raw.toNat := by
    rw [toNat_ofParts n.shard_lt n.slot_lt, shard_eq_div, slot_eq_mod, Nat.div_add_mod']
  exact congrArg Name.mk (UInt32.toNat.inj hraw)

end Name

/-! ## What a call does to the table -/

theorem Shard.slotOf?_push (shard : Shard) (s s' : String) :
    (shard.push s).slotOf? s' = if s' = s then some shard.texts.size else shard.slotOf? s' := by
  rw [slotOf?, push, List.lookup_cons]
  by_cases h : s' = s
  · rw [beq_iff_eq.mpr h, if_pos h]
  · rw [beq_eq_false_iff_ne.mpr h, if_neg h, slotOf?]

namespace Interner

open Name (slotCount)

variable {t : Interner}

/-- A shard is read by its position in either way. -/
theorem get_shards (t : Interner) (i : Fin Name.shardCount) : t.shards.get i = t.shards[i] := rfl

theorem shards_append (t : Interner) (s : String) (i : Fin Name.shardCount) :
    (t.append s).shards[i] = if i = shardOf s then t.shards[i].push s else t.shards[i] := by
  rw [append, Fin.getElem_fin, Vector.getElem_set]
  by_cases h : i = shardOf s
  · subst h
    simp
  · rw [if_neg h, if_neg fun hval => h (Fin.ext hval.symm)]
    rfl

/-- A new text is in the table afterwards, and nothing has become of the others. -/
theorem name?_append (t : Interner) (s s' : String) :
    (t.append s).name? s' =
      if s' = s then some (nameAt s (t.shards.get (shardOf s)).texts.size) else t.name? s' := by
  rw [name?, shards_append, get_shards]
  by_cases h : s' = s
  · subst h
    rw [if_pos rfl, if_pos rfl, Shard.slotOf?_push, if_pos rfl, Option.map_some]
  · rw [if_neg h]
    split
    · rw [Shard.slotOf?_push, if_neg h, name?]
    · rw [name?]

/-- There is room in the shard of a text. -/
def HasRoom (t : Interner) (s : String) : Prop :=
  (t.shards.get (shardOf s)).texts.size < slotCount

/-- A call is answered with the name that the text has, or with the next slot of its shard. -/
theorem intern_eq_ok {s : String} {n : Name} {t' : Interner} :
    t.intern s = .ok (n, t') ↔
      (t.name? s = some n ∧ t' = t)
        ∨ (t.name? s = none ∧ t.HasRoom s
          ∧ n = nameAt s (t.shards.get (shardOf s)).texts.size ∧ t' = t.append s) := by
  have hroom : t.HasRoom s ↔ ¬ Name.maxSlot.toNat < (t.shards.get (shardOf s)).texts.size := by
    have hmax : Name.maxSlot.toNat + 1 = slotCount := by decide
    rw [HasRoom]
    omega
  rw [get_shards] at hroom ⊢
  rw [intern]
  cases hname : t.name? s with
  | some known => simp [eq_comm]
  | none =>
    dsimp only
    by_cases hr : t.HasRoom s
    · rw [if_neg (hroom.mp hr)]
      simp [hr, eq_comm]
    · rw [if_pos (not_not.mp fun hle => hr (hroom.mpr hle))]
      simp [hr]

theorem intern_known {s : String} {n : Name} (h : t.name? s = some n) : t.intern s = .ok (n, t) :=
  intern_eq_ok.mpr (.inl ⟨h, rfl⟩)

/-- A text that was called for has the name that the call was answered with. -/
theorem name?_of_intern {s : String} {n : Name} {t' : Interner} (h : t.intern s = .ok (n, t')) :
    t'.name? s = some n := by
  rcases intern_eq_ok.mp h with ⟨hname, rfl⟩ | ⟨_, _, rfl, rfl⟩
  · exact hname
  · rw [name?_append, if_pos rfl]

theorem hold_of_intern {s : String} {n : Name} {t' : Interner} (h : t.intern s = .ok (n, t')) :
    t.hold s = t' := by
  rw [hold, h]

/-- What holding a text does to the names: at most that text is new. -/
theorem name?_hold {asked s : String} {n : Name} :
    (t.hold asked).name? s = some n ↔
      t.name? s = some n ∨ (s = asked ∧ ∃ t', t.intern asked = .ok (n, t')) := by
  cases h : t.intern asked with
  | error cause => simp [hold, h]
  | ok answer =>
    obtain ⟨answered, t'⟩ := answer
    rw [hold_of_intern h]
    rcases intern_eq_ok.mp h with ⟨hname, rfl⟩ | ⟨hname, _, rfl, rfl⟩
    · constructor
      · exact .inl
      · intro hs
        rcases hs with hs | ⟨rfl, _, hs⟩
        · exact hs
        · obtain rfl : answered = n := congrArg Prod.fst (Except.ok.inj hs)
          exact hname
    · rw [name?_append]
      by_cases hs : s = asked
      · subst hs
        simp [hname, eq_comm]
      · simp [hs]

/-! ## Each text is in one place -/

/-- The four ways in which a table keeps its texts agree. -/
structure Sound (t : Interner) : Prop where
  /-- A shard maps each of its texts to the slot that the text is in. -/
  slot_iff : ∀ (i : Fin Name.shardCount) (s : String) (slot : Nat),
    t.shards[i].slotOf? s = some slot ↔ t.shards[i].texts[slot]? = some s
  /-- A text is in the shard that it hashes to. -/
  home : ∀ (i : Fin Name.shardCount) (s : String) (slot : Nat),
    t.shards[i].texts[slot]? = some s → shardOf s = i
  /-- Every slot fits a name. -/
  small : ∀ i : Fin Name.shardCount, t.shards[i].texts.size ≤ slotCount
  /-- The texts of the shards are counted. -/
  sum : t.size = ∑ i : Fin Name.shardCount, t.shards[i].texts.size
  /-- Texts are counted once. -/
  card : ∃ held : Finset String, (∀ s, s ∈ held ↔ ∃ n, t.name? s = some n) ∧ t.size = held.card

theorem Sound.slot_lt (h : t.Sound) {i : Fin Name.shardCount} {s : String} {slot : Nat}
    (hs : t.shards[i].texts[slot]? = some s) :
    slot < t.shards[i].texts.size ∧ slot < slotCount := by
  obtain ⟨hlt, _⟩ := Array.getElem?_eq_some_iff.mp hs
  exact ⟨hlt, Nat.lt_of_lt_of_le hlt (h.small i)⟩

theorem slotOf?_eq_none_of_name? {s : String} (h : t.name? s = none) :
    (t.shards.get (shardOf s)).slotOf? s = none := by
  rwa [name?, Option.map_eq_none_iff, ← get_shards] at h

/-- A text is found under its name, and only there. -/
theorem Sound.text?_eq_some_iff (h : t.Sound) {n : Name} {s : String} :
    t.text? n = some s ↔ t.name? s = some n := by
  rw [text?, dif_pos n.shard_lt, name?, Option.map_eq_some_iff]
  constructor
  · intro hs
    have hhome : shardOf s = ⟨n.shard, n.shard_lt⟩ := h.home ⟨n.shard, n.shard_lt⟩ s n.slot hs
    refine ⟨n.slot, ?_, ?_⟩
    · simp only [hhome]
      exact (h.slot_iff ⟨n.shard, n.shard_lt⟩ s n.slot).mpr hs
    · rw [nameAt, hhome, Name.ofParts_self]
  · intro hs
    obtain ⟨slot, hslot, hname⟩ := hs
    have htext := (h.slot_iff _ s slot).mp hslot
    have hlt := (h.slot_lt htext).2
    subst hname
    have hshard : (nameAt s slot).shard = shardOf s := Name.shard_ofParts (shardOf s).isLt hlt
    have hpart : (nameAt s slot).slot = slot := Name.slot_ofParts (shardOf s).isLt hlt
    simp only [hshard, hpart]
    exact htext

theorem Sound.lookup_eq (h : t.Sound) {n : Name} {s : String} (hname : t.name? s = some n) :
    t.lookup n = s := by
  rw [lookup, h.text?_eq_some_iff.mpr hname, Option.getD_some]

/-- No two texts share a name. -/
theorem Sound.name?_inj (h : t.Sound) {n : Name} {s s' : String} (hs : t.name? s = some n)
    (hs' : t.name? s' = some n) : s = s' :=
  Option.some.inj ((h.text?_eq_some_iff.mpr hs).symm.trans (h.text?_eq_some_iff.mpr hs'))

theorem Sound.name?_eq_iff (h : t.Sound) {n n' : Name} {s s' : String} (hs : t.name? s = some n)
    (hs' : t.name? s' = some n') : n = n' ↔ s = s' := by
  constructor
  · rintro rfl
    exact h.name?_inj hs hs'
  · rintro rfl
    exact Option.some.inj (hs.symm.trans hs')

/-- A name that no text has leads to no text. -/
theorem Sound.lookup_eq_unknown (h : t.Sound) {n : Name} (hn : ∀ s, t.name? s ≠ some n) :
    t.lookup n = unknownText := by
  cases htext : t.text? n with
  | none => rw [lookup, htext, Option.getD_none]
  | some s => exact absurd (h.text?_eq_some_iff.mp htext) (hn s)

/-- The names that texts have are those whose slots are taken. -/
theorem Sound.exists_text_iff (h : t.Sound) (n : Name) : (∃ s, t.name? s = some n) ↔
    n.slot < (t.shards.get ⟨n.shard, n.shard_lt⟩).texts.size := by
  have htext : t.text? n = (t.shards.get ⟨n.shard, n.shard_lt⟩).texts[n.slot]? :=
    dif_pos n.shard_lt
  simp only [← h.text?_eq_some_iff, htext, Array.getElem?_eq_some_iff]
  exact ⟨fun ⟨_, hlt, _⟩ => hlt, fun hlt => ⟨_, hlt, rfl⟩⟩

/-- A name is made of the shard and the slot of its text, and both are read off it again. -/
theorem Sound.parts_of_name? (h : t.Sound) {s : String} {n : Name} (hs : t.name? s = some n) :
    ∃ slot, n = .ofParts (.ofNat (shardOf s)) (.ofNat slot) ∧ n.shard = shardOf s ∧ n.slot = slot
      ∧ slot < (t.shards.get (shardOf s)).texts.size := by
  obtain ⟨slot, hslot, hname⟩ := Option.map_eq_some_iff.mp hs
  have hlt := h.slot_lt ((h.slot_iff _ s slot).mp hslot)
  subst hname
  exact ⟨slot, rfl, Name.shard_ofParts (shardOf s).isLt hlt.2,
    Name.slot_ofParts (shardOf s).isLt hlt.2, hlt.1⟩

theorem Sound.size_eq_card (h : t.Sound) {held : Finset String}
    (hheld : ∀ s, s ∈ held ↔ ∃ n, t.name? s = some n) : t.size = held.card := by
  obtain ⟨known, hknown, hsize⟩ := h.card
  have heq : held = known := by
    ext s
    rw [hheld, hknown]
  rw [heq]
  exact hsize

theorem Sound.append (h : t.Sound) {s : String} (hnew : t.name? s = none) (hroom : t.HasRoom s) :
    (t.append s).Sound := by
  have hslot := slotOf?_eq_none_of_name? hnew
  rw [get_shards] at hslot
  have htexts : ∀ (i : Fin Name.shardCount) slot, (t.append s).shards[i].texts[slot]? =
      if i = shardOf s ∧ slot = t.shards[i].texts.size then some s
      else t.shards[i].texts[slot]? := by
    intro i slot
    rw [shards_append]
    by_cases hi : i = shardOf s
    · rw [if_pos hi, Shard.push, Array.getElem?_push]
      simp [hi]
    · simp [hi]
  have hsize : ∀ i : Fin Name.shardCount, (t.append s).shards[i].texts.size =
      t.shards[i].texts.size + if i = shardOf s then 1 else 0 := by
    intro i
    rw [shards_append]
    by_cases hi : i = shardOf s
    · rw [if_pos hi, if_pos hi, Shard.push, Array.size_push]
    · rw [if_neg hi, if_neg hi, Nat.add_zero]
  refine ⟨fun i s' slot => ?slot_iff, fun i s' slot => ?home, fun i => ?small, ?sum, ?card⟩
  case slot_iff =>
    rw [htexts, shards_append]
    by_cases hi : i = shardOf s
    · subst hi
      rw [if_pos rfl, Shard.slotOf?_push]
      by_cases hs : s' = s
      · subst hs
        -- the text is in no old slot, because the shard would know it
        have hold : t.shards[shardOf s'].texts[slot]? ≠ some s' := by
          intro htext
          rw [← h.slot_iff, hslot] at htext
          exact absurd htext (by simp)
        rw [if_pos rfl]
        by_cases hnext : slot = t.shards[shardOf s'].texts.size
        · rw [if_pos ⟨rfl, hnext⟩, hnext]
          exact iff_of_true rfl rfl
        · rw [if_neg fun hand => hnext hand.2]
          exact iff_of_false (fun heq => hnext (Option.some.inj heq).symm) hold
      · -- the next slot is not taken
        rw [if_neg hs, h.slot_iff]
        by_cases hnext : slot = t.shards[shardOf s].texts.size
        · subst hnext
          simp [Ne.symm hs]
        · rw [if_neg fun hand => hnext hand.2]
    · simpa [hi] using h.slot_iff i s' slot
  case home =>
    rw [htexts]
    split
    · rename_i hi
      intro hs
      rw [← Option.some.inj hs]
      exact hi.1.symm
    · exact h.home i s' slot
  case small =>
    rw [hsize]
    split
    · rename_i hi
      rw [hi]
      exact hroom
    · exact h.small i
  case sum =>
    simp only [hsize, Finset.sum_add_distrib, Finset.sum_ite_eq', Finset.mem_univ, if_true]
    exact congrArg (· + 1) h.sum
  case card =>
    obtain ⟨held, hheld, hcard⟩ := h.card
    have hs : s ∉ held := by
      rw [hheld, hnew]
      simp
    refine ⟨insert s held, fun s' => ?_, ?_⟩
    · rw [Finset.mem_insert, hheld, name?_append]
      by_cases h' : s' = s
      · simp [h']
      · simp [h']
    · rw [Finset.card_insert_of_notMem hs]
      exact congrArg (· + 1) hcard

/-- **Every call keeps the table sound.** -/
theorem Sound.intern (h : t.Sound) {s : String} {n : Name} {t' : Interner}
    (hs : t.intern s = .ok (n, t')) : t'.Sound := by
  rcases intern_eq_ok.mp hs with ⟨_, rfl⟩ | ⟨hnew, hroom, _, rfl⟩
  · exact h
  · exact h.append hnew hroom

theorem Sound.hold (h : t.Sound) (s : String) : (t.hold s).Sound := by
  cases hs : t.intern s with
  | error cause =>
    rw [Interner.hold, hs]
    exact h
  | ok answer =>
    rw [hold_of_intern hs]
    exact h.intern hs

/-- A table without texts. -/
def blank : Interner := ⟨.replicate Name.shardCount .empty, 0⟩

/-- Putting the empty text into the first shard by hand is what a call for it would do. -/
theorem bare_eq : bare = blank.append "" := by decide +kernel

theorem shards_blank (i : Fin Name.shardCount) : blank.shards[i] = .empty := by
  rw [blank, Fin.getElem_fin, Vector.getElem_replicate]

theorem name?_blank (s : String) : blank.name? s = none := by
  rw [name?, shards_blank]
  rfl

theorem sound_blank : blank.Sound where
  slot_iff i s slot := by
    rw [shards_blank]
    simp [Shard.slotOf?, Shard.empty]
  home i s slot hs := by
    rw [shards_blank] at hs
    simp [Shard.empty] at hs
  small i := by
    rw [shards_blank]
    exact Nat.zero_le _
  sum := by
    simp only [shards_blank]
    rfl
  card := ⟨∅, fun s => by simp [name?_blank], rfl⟩

theorem sound_bare : bare.Sound := by
  rw [bare_eq]
  refine sound_blank.append (name?_blank "") ?_
  rw [HasRoom, get_shards, shards_blank]
  exact Nat.two_pow_pos 28

theorem name?_bare {s : String} {n : Name} : bare.name? s = some n ↔ s = "" ∧ n = .empty := by
  have hname : nameAt "" 0 = .empty := by decide +kernel
  rw [bare_eq, name?_append, get_shards, shards_blank]
  by_cases hs : s = ""
  · simp [hs, Shard.empty, hname, eq_comm]
  · simp [hs, name?_blank]

/-! ## Calls one after the other -/

/-- The table after calls. -/
def holdAll (t : Interner) (calls : List String) : Interner := calls.foldl hold t

theorem Sound.holdAll (h : t.Sound) (calls : List String) : (t.holdAll calls).Sound := by
  induction calls generalizing t with
  | nil => exact h
  | cons asked rest ih => exact ih (h.hold asked)

/-- Of the calls that were made to the table, one for the text was answered with the name. -/
inductive Answered : Interner → List String → String → Name → Prop where
  | now {t t' : Interner} {rest : List String} {s : String} {n : Name} :
    t.intern s = .ok (n, t') → Answered t (s :: rest) s n
  | later {t : Interner} {asked : String} {rest : List String} {s : String} {n : Name} :
    Answered (t.hold asked) rest s n → Answered t (asked :: rest) s n

/-- **A table holds what it held and what its calls were answered with.** -/
theorem name?_holdAll {s : String} {n : Name} (calls : List String) : ∀ {t : Interner},
    (t.holdAll calls).name? s = some n ↔ t.name? s = some n ∨ t.Answered calls s n := by
  induction calls with
  | nil =>
    intro t
    refine ⟨.inl, fun h => h.elim (fun h => h) fun h => ?_⟩
    cases h
  | cons asked rest ih =>
    intro t
    show ((t.hold asked).holdAll rest).name? s = some n ↔ _
    rw [ih, name?_hold, or_assoc]
    refine or_congr_right ⟨fun h => ?_, fun h => ?_⟩
    · rcases h with ⟨rfl, t', hs⟩ | h
      · exact .now hs
      · exact .later h
    · cases h with
      | now hs => exact .inl ⟨rfl, _, hs⟩
      | later h => exact .inr h

theorem Answered.mem {calls : List String} {s : String} {n : Name} (h : t.Answered calls s n) :
    s ∈ calls := by
  induction h with
  | now _ => exact List.mem_cons_self
  | later _ ih => exact List.mem_cons_of_mem _ ih

/-- The table after calls, if it had what every table has from the start. -/
def history (calls : List String) : Interner := fresh.holdAll calls

/-- The name was given to the text: by hand to the empty one, or in answer to a call. The first
calls are those for the keywords. -/
def Issued (calls : List String) (s : String) (n : Name) : Prop :=
  (s = "" ∧ n = .empty) ∨ bare.Answered (keywords ++ calls) s n

theorem holdAll_bare (calls : List String) : bare.holdAll (keywords ++ calls) = history calls := by
  rw [holdAll, List.foldl_append]
  rfl

theorem sound_history (calls : List String) : (history calls).Sound :=
  holdAll_bare calls ▸ sound_bare.holdAll _

theorem issued_iff {calls : List String} {s : String} {n : Name} :
    Issued calls s n ↔ (history calls).name? s = some n := by
  rw [← holdAll_bare, name?_holdAll, name?_bare, Issued]

/-- A table that calls have been made to never gives up a name. -/
theorem issued_append {calls : List String} {s : String} {n : Name} (h : Issued calls s n)
    (more : List String) : Issued (calls ++ more) s n := by
  rw [issued_iff] at h ⊢
  have hmore : history (calls ++ more) = (history calls).holdAll more := List.foldl_append
  rw [hmore, name?_holdAll]
  exact .inl h

/-- A text that finds room gets a name. -/
theorem intern_of_hasRoom {s : String} (hroom : t.HasRoom s) :
    ∃ n t', t.intern s = .ok (n, t') := by
  cases hname : t.name? s with
  | some n => exact ⟨n, t, intern_known hname⟩
  | none => exact ⟨_, _, intern_eq_ok.mpr (.inr ⟨hname, hroom, rfl, rfl⟩)⟩

theorem name?_hold_of_room {s : String} (hroom : t.HasRoom s) :
    ∃ n, (t.hold s).name? s = some n := by
  obtain ⟨n, t', hs⟩ := intern_of_hasRoom hroom
  rw [hold_of_intern hs]
  exact ⟨n, name?_of_intern hs⟩

theorem size_le_hold (t : Interner) (s : String) (i : Fin Name.shardCount) :
    t.shards[i].texts.size ≤ (t.hold s).shards[i].texts.size := by
  cases hs : t.intern s with
  | error cause => rw [hold, hs]
  | ok answer =>
    rw [hold_of_intern hs]
    rcases intern_eq_ok.mp hs with ⟨_, heq⟩ | ⟨_, _, _, heq⟩
    · rw [heq]
    · rw [heq, shards_append]
      split
      · rw [Shard.push, Array.size_push]
        exact Nat.le_succ _
      · exact Nat.le_refl _

theorem size_le_holdAll (calls : List String) (i : Fin Name.shardCount) : ∀ (t : Interner),
    t.shards[i].texts.size ≤ (t.holdAll calls).shards[i].texts.size := by
  induction calls with
  | nil => exact fun t => Nat.le_refl _
  | cons asked rest ih => exact fun t => (t.size_le_hold asked i).trans (ih (t.hold asked))

/-- While no shard is full every call is answered. -/
theorem name?_holdAll_of_room (calls : List String) : ∀ {t : Interner},
    (∀ i : Fin Name.shardCount, (t.holdAll calls).shards[i].texts.size < slotCount) →
      ∀ s ∈ calls, ∃ n, (t.holdAll calls).name? s = some n := by
  induction calls with
  | nil => exact fun _ s hs => absurd hs (by simp)
  | cons asked rest ih =>
    intro t hroom s hs
    rcases List.mem_cons.mp hs with rfl | hs
    · have hfirst : t.HasRoom s :=
        Nat.lt_of_le_of_lt (t.size_le_holdAll (s :: rest) (shardOf s)) (hroom (shardOf s))
      obtain ⟨n, hn⟩ := name?_hold_of_room hfirst
      exact ⟨n, (name?_holdAll rest).mpr (.inl hn)⟩
    · exact ih hroom s hs

/-! ## The ledger -/

/-- What holds of the names and texts of a table after calls. -/
structure Ledger (calls : List String) : Prop where
  /-- A name leads to the text that it was given to, now and after more calls. -/
  lookup_eq : ∀ s n, Issued calls s n → ∀ more, (history (calls ++ more)).lookup n = s
  /-- Names are equal exactly if their texts are, whenever they were given. -/
  name_eq_iff : ∀ s s' n n', Issued calls s n → Issued calls s' n' → (n = n' ↔ s = s')
  /-- The table counts its texts, each of them once. -/
  size_eq_card : ∀ held : Finset String, (∀ s, s ∈ held ↔ ∃ n, Issued calls s n) →
    (history calls).size = held.card
  /-- It counts as many texts as its shards hold. -/
  size_eq_sum : (history calls).size =
    ∑ i : Fin Name.shardCount, (history calls).shards[i].texts.size
  /-- The names that were given to texts are those whose slots are taken. -/
  issued_iff_lt : ∀ n, (∃ s, Issued calls s n) ↔
    n.slot < ((history calls).shards.get ⟨n.shard, n.shard_lt⟩).texts.size
  /-- A name that was not given to any text leads to no text. -/
  lookup_unknown : ∀ n, (∀ s, ¬ Issued calls s n) → (history calls).lookup n = unknownText
  /-- A name is made of the shard of its text and a slot that is taken there, and both are read off
  the name again. -/
  parts : ∀ s n, Issued calls s n →
    ∃ slot, n = .ofParts (.ofNat (shardOf s)) (.ofNat slot) ∧ n.shard = shardOf s ∧ n.slot = slot
      ∧ slot < (history calls).shards[shardOf s].texts.size
  /-- While no shard is full every call is answered: the table holds the empty text, the keywords
  and what was asked for. -/
  size_eq : (∀ i : Fin Name.shardCount, (history calls).shards[i].texts.size < slotCount) →
    (∀ s ∈ calls, ∃ n, Issued calls s n)
      ∧ (history calls).size = ("" :: keywords ++ calls).toFinset.card

/-- While no shard is full, what is held is the empty text, the keywords and what was asked for. -/
theorem issued_iff_asked {calls : List String}
    (hroom : ∀ i : Fin Name.shardCount, (history calls).shards[i].texts.size < slotCount)
    (s : String) : s ∈ "" :: keywords ++ calls ↔ ∃ n, Issued calls s n := by
  rw [List.cons_append, List.mem_cons]
  constructor
  · intro hs
    rcases hs with rfl | hs
    · exact ⟨.empty, .inl ⟨rfl, rfl⟩⟩
    · simp only [issued_iff]
      rw [← holdAll_bare] at hroom ⊢
      exact name?_holdAll_of_room _ hroom s hs
  · intro hs
    obtain ⟨n, hs | hs⟩ := hs
    · exact .inl hs.1
    · exact .inr hs.mem

/-- **Names and texts are one to one**, whatever calls are made in whatever order. -/
theorem names_of_texts (calls : List String) : Ledger calls := by
  have h := sound_history calls
  have hcard : ∀ held : Finset String, (∀ s, s ∈ held ↔ ∃ n, Issued calls s n) →
      (history calls).size = held.card := by
    intro held hheld
    exact h.size_eq_card fun s => by simp only [hheld, issued_iff]
  refine ⟨?lookup_eq, ?name_eq_iff, hcard, h.sum, ?issued_iff_lt, ?lookup_unknown, ?parts, ?size_eq⟩
  case lookup_eq =>
    intro s n hs more
    exact (sound_history (calls ++ more)).lookup_eq (issued_iff.mp (issued_append hs more))
  case name_eq_iff =>
    intro s s' n n' hs hs'
    exact h.name?_eq_iff (issued_iff.mp hs) (issued_iff.mp hs')
  case issued_iff_lt =>
    intro n
    simp only [issued_iff]
    exact h.exists_text_iff n
  case lookup_unknown =>
    intro n hn
    exact h.lookup_eq_unknown fun s hs => hn s (issued_iff.mpr hs)
  case parts =>
    intro s n hs
    exact h.parts_of_name? (issued_iff.mp hs)
  case size_eq =>
    intro hroom
    have hasked := issued_iff_asked hroom
    refine ⟨fun s hs => (hasked s).mp (List.mem_append_right _ hs), hcard _ fun s => ?_⟩
    rw [List.mem_toFinset, hasked]

/-- A text that is asked for again takes no slot, and neither does a keyword. -/
example : (history ["a", "q", "self", "a"]).size = 6
    ∧ (history ["a", "q", "self", "a"]).name? "q" = some (.ofParts 1 1) := by decide +kernel

end Interner

end SyntaxGraph
