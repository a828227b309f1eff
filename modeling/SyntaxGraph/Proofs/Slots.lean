import Mathlib.Data.List.Induction
import Mathlib.Data.List.TakeWhile
import SyntaxGraph.Proofs.Names

/-!
# A name depends on the history of its shard

That names tell texts apart does not say which names they are. A text goes to the
shard that its first eight bytes say, and there into the slot whose number is how
many other texts of the shard came before it. Calls for texts of other shards may
come in between, in any number and order, and make no difference.

`Filed` is what a table keeps of a history: each shard holds as many texts as the
history has for it, and each text is in the slot that its first occurrence says.
A shard with room for no more texts holds those that came first, so the invariant
needs no assumption that there is room.
-/

namespace SyntaxGraph.Interner

open Name (slotCount)

variable {t : Interner} {texts : List String} {s : String}

/-! ## Counting texts -/

/-- All that a table is ever asked for: what every table holds from the start comes first. -/
def requests (calls : List String) : List String := "" :: keywords ++ calls

/-- The texts of one shard, in their order. -/
def ofShard (i : Fin Name.shardCount) (texts : List String) : List String :=
  texts.filter fun s => shardOf s = i

/-- How many texts of its own shard come before a text comes for the first time. -/
def rank (texts : List String) (s : String) : Nat :=
  (ofShard (shardOf s) (texts.takeWhile fun s' => s' ≠ s)).toFinset.card

theorem mem_ofShard {i : Fin Name.shardCount} :
    s ∈ ofShard i texts ↔ s ∈ texts ∧ shardOf s = i := by
  simp [ofShard]

theorem ofShard_append (i : Fin Name.shardCount) (texts more : List String) :
    ofShard i (texts ++ more) = ofShard i texts ++ ofShard i more :=
  List.filter_append _ _

/-- What comes after a text has no influence on its rank. -/
theorem rank_append_of_mem (hs : s ∈ texts) (more : List String) :
    rank (texts ++ more) s = rank texts s := by
  have hstop : (texts.takeWhile fun s' => s' ≠ s) ≠ texts := by
    intro hall
    simpa using List.takeWhile_eq_self_iff.mp hall s hs
  have hlength : (texts.takeWhile fun s' => s' ≠ s).length ≠ texts.length := by
    intro hlength
    exact hstop ((List.takeWhile_prefix _).eq_of_length hlength)
  rw [rank, List.takeWhile_append, if_neg hlength, rank]

/-- A text that is new comes after all that there is. -/
theorem rank_append_of_not_mem (hs : s ∉ texts) (more : List String) :
    rank (texts ++ s :: more) s = (ofShard (shardOf s) texts).toFinset.card := by
  have hall : ∀ s' ∈ texts, decide (s' ≠ s) = true := by
    intro s' hs'
    exact decide_eq_true fun heq => hs (heq ▸ hs')
  rw [rank, List.takeWhile_append_of_pos hall, List.takeWhile_cons_of_neg (by simp),
    List.append_nil]

/-- The text itself is one more text of its shard. -/
theorem rank_lt (hs : s ∈ texts) : rank texts s < (ofShard (shardOf s) texts).toFinset.card := by
  refine Finset.card_lt_card (Finset.ssubset_iff_of_subset ?_ |>.mpr ⟨s, ?_, ?_⟩)
  · intro s' hs'
    rw [List.mem_toFinset, mem_ofShard] at hs' ⊢
    exact ⟨(List.takeWhile_prefix _).subset hs'.1, hs'.2⟩
  · exact List.mem_toFinset.mpr (mem_ofShard.mpr ⟨hs, rfl⟩)
  · intro hs'
    rw [List.mem_toFinset, mem_ofShard] at hs'
    simpa using List.mem_takeWhile_imp hs'.1

theorem card_ofShard_of_mem (hs : s ∈ texts) (i : Fin Name.shardCount) :
    (ofShard i (texts ++ [s])).toFinset.card = (ofShard i texts).toFinset.card := by
  congr 1
  ext s'
  rw [List.mem_toFinset, List.mem_toFinset, mem_ofShard, mem_ofShard, List.mem_append,
    List.mem_singleton]
  refine and_congr_left fun _ => ⟨fun h => ?_, .inl⟩
  rcases h with h | rfl
  · exact h
  · exact hs

theorem card_ofShard_of_not_mem (hs : s ∉ texts) (i : Fin Name.shardCount) :
    (ofShard i (texts ++ [s])).toFinset.card =
      (ofShard i texts).toFinset.card + if i = shardOf s then 1 else 0 := by
  rw [ofShard_append]
  by_cases hi : i = shardOf s
  · have hsingle : ofShard i [s] = [s] := by simp [ofShard, hi]
    have hnew : s ∉ (ofShard i texts).toFinset := by
      rw [List.mem_toFinset, mem_ofShard]
      exact fun h => hs h.1
    rw [hsingle, if_pos hi, List.toFinset_append, Finset.union_comm]
    exact Finset.card_insert_of_notMem hnew
  · have hsingle : ofShard i [s] = [] := by simp [ofShard, Ne.symm hi]
    rw [hsingle, if_neg hi, List.append_nil, Nat.add_zero]

/-! ## What a table keeps of its history -/

/-- The name that is due to a text, if the texts are asked for in their order. -/
def Due (texts : List String) (s : String) (n : Name) : Prop :=
  s ∈ texts ∧ rank texts s < slotCount ∧ n = nameAt s (rank texts s)

theorem due_append_of_mem (hs : s ∈ texts) (more : List String) (n : Name) :
    Due (texts ++ more) s n ↔ Due texts s n := by
  rw [Due, Due, rank_append_of_mem hs]
  exact and_congr_left fun _ => iff_of_true (List.mem_append_left _ hs) hs

theorem due_append_of_ne {asked : String} (hne : s ≠ asked) (n : Name) :
    Due (texts ++ [asked]) s n ↔ Due texts s n := by
  by_cases hs : s ∈ texts
  · exact due_append_of_mem hs [asked] n
  · exact iff_of_false (fun h => by simpa [hs, hne] using h.1) fun h => hs h.1

theorem due_append_of_not_mem (hs : s ∉ texts) (n : Name) :
    Due (texts ++ [s]) s n ↔ (ofShard (shardOf s) texts).toFinset.card < slotCount
      ∧ n = nameAt s (ofShard (shardOf s) texts).toFinset.card := by
  rw [Due, rank_append_of_not_mem hs]
  exact and_iff_right (by simp)

/-- The table holds the texts in the order in which they first came, each in its shard, as far as
there is room. -/
structure Filed (texts : List String) (t : Interner) : Prop where
  /-- A shard holds its texts, each of them once. -/
  size_eq : ∀ i : Fin Name.shardCount,
    (t.shards.get i).texts.size = min slotCount (ofShard i texts).toFinset.card
  /-- A text has the name that is due to it. -/
  name?_iff : ∀ s n, t.name? s = some n ↔ Due texts s n

theorem filed_blank : Filed [] blank where
  size_eq i := by
    rw [get_shards, shards_blank]
    simp [ofShard, Shard.empty]
  name?_iff s n := by simp [name?_blank, Due]

theorem Filed.name?_eq_none (h : Filed texts t) (hdue : ∀ n, ¬ Due texts s n) :
    t.name? s = none := by
  rw [Option.eq_none_iff_forall_ne_some]
  exact fun n hn => hdue n ((h.name?_iff s n).mp hn)

theorem Filed.hasRoom_iff (h : Filed texts t) (s : String) :
    t.HasRoom s ↔ (ofShard (shardOf s) texts).toFinset.card < slotCount := by
  rw [HasRoom, h.size_eq]
  omega

/-- A text for which there is no room is refused, and the table stays as it is. -/
theorem Filed.intern_full (h : Filed texts t) (hname : t.name? s = none) (hroom : ¬ t.HasRoom s) :
    t.intern s = .error (.shardOverflow (shardOf s) slotCount) ∧ t.hold s = t := by
  have hsize : (t.shards.get (shardOf s)).texts.size = slotCount := by
    rw [h.hasRoom_iff] at hroom
    rw [h.size_eq]
    omega
  rw [get_shards] at hsize
  have hmax : Name.maxSlot.toNat < slotCount := by decide
  have herror : t.intern s = .error (.shardOverflow (shardOf s) slotCount) := by
    rw [intern, hname]
    dsimp only
    rw [hsize, if_pos hmax]
  exact ⟨herror, by rw [hold, herror]⟩

theorem intern_new (hname : t.name? s = none) (hroom : t.HasRoom s) :
    t.intern s = .ok (nameAt s (t.shards.get (shardOf s)).texts.size, t.append s)
      ∧ t.hold s = t.append s := by
  have hok := intern_eq_ok.mpr (.inr ⟨hname, hroom, rfl, rfl⟩)
  exact ⟨hok, hold_of_intern hok⟩

/-- Asking again changes nothing. -/
theorem Filed.hold_of_mem (h : Filed texts t) (hs : s ∈ texts) : t.hold s = t := by
  by_cases hrank : rank texts s < slotCount
  · exact hold_of_intern (intern_known ((h.name?_iff s _).mpr ⟨hs, hrank, rfl⟩))
  · -- the text came when its shard was full already
    have hroom : ¬ t.HasRoom s := by
      rw [h.hasRoom_iff]
      have := rank_lt hs
      omega
    exact (h.intern_full (h.name?_eq_none fun _ hdue => hrank hdue.2.1) hroom).2

theorem size_append (t : Interner) (s : String) (i : Fin Name.shardCount) :
    ((t.append s).shards.get i).texts.size =
      (t.shards.get i).texts.size + if i = shardOf s then 1 else 0 := by
  rw [get_shards, shards_append, get_shards]
  split
  · exact Array.size_push _
  · rfl

/-- **A call files its text.** -/
theorem Filed.hold (h : Filed texts t) (asked : String) :
    Filed (texts ++ [asked]) (t.hold asked) := by
  by_cases hmem : asked ∈ texts
  · rw [h.hold_of_mem hmem]
    refine ⟨fun i => ?_, fun s n => ?_⟩
    · rw [card_ofShard_of_mem hmem, h.size_eq]
    · rw [h.name?_iff]
      by_cases hs : s = asked
      · exact (due_append_of_mem (hs ▸ hmem) _ n).symm
      · exact (due_append_of_ne hs n).symm
  · have hname : t.name? asked = none := h.name?_eq_none fun _ hdue => hmem hdue.1
    by_cases hroom : t.HasRoom asked
    · have hcard := (h.hasRoom_iff asked).mp hroom
      rw [(intern_new hname hroom).2]
      refine ⟨fun i => ?_, fun s n => ?_⟩
      · rw [size_append, card_ofShard_of_not_mem hmem, h.size_eq]
        split
        · rename_i hi
          subst hi
          omega
        · rfl
      · rw [name?_append, h.size_eq, Nat.min_eq_right (Nat.le_of_lt hcard)]
        split
        · rename_i hs
          subst hs
          rw [due_append_of_not_mem hmem, Option.some.injEq]
          exact ⟨fun hn => ⟨hcard, hn.symm⟩, fun hn => hn.2.symm⟩
        · rename_i hs
          rw [h.name?_iff, due_append_of_ne hs]
    · rw [(h.intern_full hname hroom).2]
      rw [h.hasRoom_iff] at hroom
      refine ⟨fun i => ?_, fun s n => ?_⟩
      · rw [card_ofShard_of_not_mem hmem, h.size_eq]
        split
        · rename_i hi
          subst hi
          omega
        · rfl
      · by_cases hs : s = asked
        · subst hs
          rw [hname, due_append_of_not_mem hmem]
          exact iff_of_false (by simp) fun hdue => hroom hdue.1
        · rw [h.name?_iff, due_append_of_ne hs]

theorem Filed.holdAll (h : Filed texts t) (calls : List String) :
    Filed (texts ++ calls) (t.holdAll calls) := by
  induction calls generalizing texts t with
  | nil => rwa [List.append_nil]
  | cons asked rest ih =>
    rw [List.append_cons]
    exact ih (h.hold asked)

/-- **A table has filed what it was asked for**, from the start and by any calls. -/
theorem filed_history (calls : List String) : Filed (requests calls) (history calls) := by
  have hbare : Filed [""] bare := by
    have hroom : blank.HasRoom "" := (filed_blank.hasRoom_iff "").mpr (Nat.two_pow_pos 28)
    rw [bare_eq, ← (intern_new (name?_blank "") hroom).2]
    exact filed_blank.hold ""
  rw [← holdAll_bare]
  exact hbare.holdAll (keywords ++ calls)

/-- **What a call is answered**, given what has been asked for before. -/
theorem Filed.intern_eq (h : Filed texts t) (s : String) :
    t.intern s =
      if rank (texts ++ [s]) s < slotCount then .ok (nameAt s (rank (texts ++ [s]) s), t.hold s)
      else .error (.shardOverflow (shardOf s) slotCount) := by
  cases hcall : t.intern s with
  | ok answer =>
    obtain ⟨n, t'⟩ := answer
    have hname : (t.hold s).name? s = some n := by
      rw [hold_of_intern hcall]
      exact name?_of_intern hcall
    obtain ⟨_, hrank, rfl⟩ := ((h.hold s).name?_iff s n).mp hname
    rw [if_pos hrank, hold_of_intern hcall]
  | error cause =>
    have hname : t.name? s = none := by
      cases hknown : t.name? s with
      | none => rfl
      | some n =>
        rw [intern_known hknown] at hcall
        cases hcall
    have hroom : ¬ t.HasRoom s := by
      intro hroom
      rw [(intern_new hname hroom).1] at hcall
      cases hcall
    obtain ⟨herror, hhold⟩ := h.intern_full hname hroom
    have hrank : ¬ rank (texts ++ [s]) s < slotCount := by
      intro hrank
      have hafter := ((h.hold s).name?_iff s _).mpr ⟨by simp, hrank, rfl⟩
      rw [hhold, hname] at hafter
      cases hafter
    rw [if_neg hrank, ← hcall, herror]

/-! ## The order in which texts first come -/

section FirstOccurrences

variable {α : Type} [DecidableEq α]

theorem eraseDups_concat (l : List α) (a : α) :
    (l ++ [a]).eraseDups = if a ∈ l then l.eraseDups else l.eraseDups ++ [a] := by
  rw [List.eraseDups_append]
  by_cases h : a ∈ l
  · simp [List.removeAll, h]
  · simp [List.removeAll, h, List.eraseDups_cons]

theorem eraseDups_filter (p : α → Bool) (l : List α) :
    (l.filter p).eraseDups = l.eraseDups.filter p := by
  induction l using List.reverseRecOn with
  | nil => rfl
  | append_singleton l a ih =>
    rw [List.filter_append, eraseDups_concat]
    cases hp : p a with
    | false =>
      have hnone : [a].filter p = [] := by simp [hp]
      rw [hnone, List.append_nil, ih]
      split
      · rfl
      · rw [List.filter_append, hnone, List.append_nil]
    | true =>
      have hone : [a].filter p = [a] := by simp [hp]
      rw [hone, eraseDups_concat, ih]
      by_cases ha : a ∈ l
      · rw [if_pos ha, if_pos (List.mem_filter.mpr ⟨ha, hp⟩)]
      · rw [if_neg ha, if_neg fun h => ha (List.mem_filter.mp h).1, List.filter_append, hone]

theorem length_eraseDups (l : List α) : l.eraseDups.length = l.toFinset.card := by
  induction l using List.reverseRecOn with
  | nil => rfl
  | append_singleton l a ih =>
    have hinsert : (l ++ [a]).toFinset = insert a l.toFinset := by
      ext b
      simp
    rw [eraseDups_concat, hinsert]
    by_cases ha : a ∈ l
    · rw [if_pos ha, ih, Finset.insert_eq_of_mem (List.mem_toFinset.mpr ha)]
    · have hnew : a ∉ l.toFinset := fun h => ha (List.mem_toFinset.mp h)
      rw [if_neg ha, List.length_append, ih, Finset.card_insert_of_notMem hnew,
        List.length_singleton]

end FirstOccurrences

/-- The rank of a text is its place in the list of the texts of its shard in which nothing is said
twice. -/
theorem rank_eq_idxOf (hs : s ∈ texts) :
    rank texts s = (ofShard (shardOf s) texts).eraseDups.idxOf s := by
  obtain ⟨earlier, later, rfl, hnew⟩ := List.eq_append_cons_of_mem hs
  have hfirst : ofShard (shardOf s) (s :: later) = s :: ofShard (shardOf s) later := by
    simp [ofShard]
  have hnot : s ∉ ofShard (shardOf s) earlier := fun h => hnew (mem_ofShard.mp h).1
  rw [rank_append_of_not_mem hnew, ofShard_append, hfirst, List.eraseDups_append, List.removeAll,
    List.filter_cons_of_pos (by simpa using hnot), List.eraseDups_cons,
    List.idxOf_append_of_notMem fun h => hnot (List.mem_eraseDups.mp h), List.idxOf_cons_self,
    length_eraseDups, Nat.add_zero]

/-- Two histories that agree in what they ask for of one shard give its texts the same names. -/
theorem due_congr {texts' : List String}
    (horder : (ofShard (shardOf s) texts).eraseDups = (ofShard (shardOf s) texts').eraseDups)
    (n : Name) : Due texts s n ↔ Due texts' s n := by
  have hmem : ∀ l : List String, s ∈ l ↔ s ∈ (ofShard (shardOf s) l).eraseDups := by
    intro l
    rw [List.mem_eraseDups, mem_ofShard]
    exact (and_iff_left rfl).symm
  have hboth : s ∈ texts ↔ s ∈ texts' := by rw [hmem, hmem texts', horder]
  by_cases hs : s ∈ texts
  · have hrank : rank texts s = rank texts' s := by
      rw [rank_eq_idxOf hs, rank_eq_idxOf (hboth.mp hs), horder]
    rw [Due, Due, hrank, hboth]
  · exact iff_of_false (fun h => hs h.1) fun h => hs (hboth.mpr h.1)

theorem eraseDups_requests {calls calls' : List String} {i : Fin Name.shardCount}
    (horder : (ofShard i calls).eraseDups = (ofShard i calls').eraseDups) :
    (ofShard i (requests calls)).eraseDups = (ofShard i (requests calls')).eraseDups := by
  rw [requests, ofShard_append, List.eraseDups_append, List.removeAll, eraseDups_filter, horder,
    ← eraseDups_filter, ← List.removeAll, ← List.eraseDups_append, ← ofShard_append, requests]

/-! ## Names by shard -/

theorem issued_iff_due {calls : List String} {n : Name} :
    Issued calls s n ↔ Due (requests calls) s n := by
  rw [issued_iff, (filed_history calls).name?_iff]

theorem due_iff_parts {n : Name} : Due texts s n ↔
    s ∈ texts ∧ rank texts s < slotCount ∧ n.shard = shardOf s ∧ n.slot = rank texts s := by
  refine and_congr_right fun _ => and_congr_right fun hrank => ⟨?_, ?_⟩
  · rintro rfl
    exact ⟨Name.shard_ofParts (shardOf s).isLt hrank, Name.slot_ofParts (shardOf s).isLt hrank⟩
  · intro hparts
    rw [nameAt, ← hparts.1, ← hparts.2, Name.ofParts_self]

/-- What every table holds from the start has the name that it has in a table without calls. -/
theorem issued_standard (calls : List String) (hs : s ∈ "" :: keywords) :
    ∃ n, fresh.name? s = some n ∧ ∀ n', Issued calls s n' ↔ n' = n := by
  have hheld : ∀ s ∈ "" :: keywords, (fresh.name? s).isSome = true := by decide +kernel
  obtain ⟨n, hn⟩ := Option.isSome_iff_exists.mp (hheld s hs)
  refine ⟨n, hn, fun n' => ?_⟩
  have hearlier : Due (requests calls) s n' ↔ Due (requests []) s n' :=
    (due_append_of_mem hs calls n').trans (due_append_of_mem hs [] n').symm
  have hfresh : Issued [] s n' ↔ fresh.name? s = some n' := issued_iff
  rw [issued_iff_due, hearlier, ← issued_iff_due, hfresh, hn, Option.some.injEq, eq_comm]

/-- If all texts of a shard have names, there are no more of them than slots. -/
theorem card_ofShard_le {calls : List String} (i : Fin Name.shardCount)
    (hnamed : ∀ s ∈ requests calls, ∃ n, Issued calls s n) :
    (ofShard i (requests calls)).toFinset.card ≤ slotCount := by
  have hdue : ∀ s ∈ (ofShard i (requests calls)).toFinset,
      shardOf s = i ∧ ∃ n, Due (requests calls) s n := by
    intro s hs
    obtain ⟨hmem, hi⟩ := mem_ofShard.mp (List.mem_toFinset.mp hs)
    obtain ⟨n, hn⟩ := hnamed s hmem
    exact ⟨hi, n, issued_iff_due.mp hn⟩
  -- no two of them are in the same slot
  rw [← Finset.card_range slotCount]
  refine Finset.card_le_card_of_injOn (rank (requests calls)) (fun s hs => ?_)
    fun s hs s' hs' hsame => ?_
  · obtain ⟨_, n, hn⟩ := hdue s hs
    exact Finset.mem_coe.mpr (Finset.mem_range.mpr hn.2.1)
  · obtain ⟨hi, n, hn⟩ := hdue s hs
    obtain ⟨hi', n', hn'⟩ := hdue s' hs'
    have hname : n' = n := by rw [hn.2.2, hn'.2.2, nameAt, nameAt, hi, hi', hsame]
    have hfiled := (filed_history calls).name?_iff
    exact (sound_history calls).name?_inj ((hfiled s n).mpr hn) ((hfiled s' n).mpr (hname ▸ hn'))

/-- Where calls put a text, and which calls matter for it. -/
structure ByShard (calls : List String) : Prop where
  /-- A call is answered with the slot whose number is how many other texts of the shard had been
  asked for before this one was for the first time. It is refused if there is no such slot. -/
  answer : ∀ s, (history calls).intern s =
    if rank (requests (calls ++ [s])) s < slotCount then
      .ok (nameAt s (rank (requests (calls ++ [s])) s), history (calls ++ [s]))
    else .error (.shardOverflow (shardOf s) slotCount)
  /-- The names that have been given to texts are made up in the same way. -/
  issued_iff : ∀ s n, Issued calls s n ↔ s ∈ requests calls ∧ rank (requests calls) s < slotCount
    ∧ n.shard = shardOf s ∧ n.slot = rank (requests calls) s
  /-- Every text that was asked for has a name exactly if no shard is asked for more texts than it
  has slots. -/
  answered_iff : (∀ s ∈ calls, ∃ n, Issued calls s n) ↔
    ∀ i, (ofShard i (requests calls)).toFinset.card ≤ slotCount
  /-- The shard of a text is told by its first eight bytes. -/
  shard_eq : ∀ s s' : String, s.toUTF8.toList.take 8 = s'.toUTF8.toList.take 8 →
    shardOf s = shardOf s'
  /-- Other calls in which the texts of a shard first come in the same order give them the same
  names, whatever they ask for of other shards and how often. -/
  same_names : ∀ calls' i, (ofShard i calls).eraseDups = (ofShard i calls').eraseDups →
    ∀ s, shardOf s = i → ∀ n, Issued calls s n ↔ Issued calls' s n
  /-- The empty text and the keywords have the names that they had before any call. -/
  standard : ∀ s ∈ "" :: keywords, ∃ n, fresh.name? s = some n ∧ ∀ n', Issued calls s n' ↔ n' = n

/-- **A name depends on what was asked for of its own shard**, and there on the order alone in which
texts first came. -/
theorem names_by_shard (calls : List String) : ByShard calls := by
  refine ⟨fun s => ?answer, fun s n => issued_iff_due.trans due_iff_parts, ⟨fun hcalls i => ?full,
    fun hcard s hs => ?named⟩, fun s s' hbytes => ?shard_eq,
    fun calls' i horder s hi n => ?same_names, fun s hs => issued_standard calls hs⟩
  case answer =>
    have hnext : (history calls).hold s = history (calls ++ [s]) := by
      rw [history, history, holdAll, holdAll, List.foldl_concat]
    have hrequests : requests (calls ++ [s]) = requests calls ++ [s] :=
      (List.append_assoc _ _ _).symm
    rw [(filed_history calls).intern_eq, hnext, hrequests]
  case full =>
    refine card_ofShard_le i fun s hs => ?_
    rcases List.mem_append.mp hs with hs | hs
    · obtain ⟨n, _, hn⟩ := issued_standard calls hs
      exact ⟨n, (hn n).mpr rfl⟩
    · exact hcalls s hs
  case named =>
    have hmem : s ∈ requests calls := List.mem_append_right _ hs
    have hrank := Nat.lt_of_lt_of_le (rank_lt hmem) (hcard (shardOf s))
    exact ⟨_, issued_iff_due.mpr ⟨hmem, hrank, rfl⟩⟩
  case shard_eq =>
    rw [shardOf, shardOf]
    simp only [hash, hbytes]
  case same_names =>
    subst hi
    rw [issued_iff_due, issued_iff_due]
    exact due_congr (eraseDups_requests horder) n

/-- What comes in between, of another shard or for the second time, takes no slot of this one. -/
example : (history ["a", "b", "self", "q"]).name? "q" = some (.ofParts 1 1)
    ∧ (history ["c", "a", "a", "q", "b"]).name? "q" = some (.ofParts 1 1)
    ∧ fresh.name? "$@" = some (.ofParts 12 1) := by decide +kernel

end SyntaxGraph.Interner
