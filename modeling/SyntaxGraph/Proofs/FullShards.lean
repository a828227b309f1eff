import SyntaxGraph.Proofs.Slots

/-!
# Full shards

Texts that begin with the same eight bytes go to the same shard, so whoever asks
for enough of them fills it. The texts that were there first keep their names. A
text of that shard that comes later is refused, whoever asks for it, while every
other shard may be as good as empty.
-/

namespace SyntaxGraph.Interner

open Name (slotCount)

/-! ## The beginning of a text -/

theorem toList_loop (bytes : ByteArray) (i : Nat) (earlier : List UInt8) :
    ByteArray.toList.loop bytes i earlier = earlier.reverse ++ bytes.data.toList.drop i := by
  fun_induction ByteArray.toList.loop bytes i earlier with
  | case1 i earlier hlt ih =>
    have hi : i < bytes.data.toList.length := by simpa using hlt
    rw [ih, List.drop_eq_getElem_cons hi]
    simp [ByteArray.get!, hlt]
  | case2 i earlier hge =>
    rw [List.drop_eq_nil_of_le (by simpa using Nat.le_of_not_lt hge), List.append_nil]

theorem toList_data (bytes : ByteArray) : bytes.toList = bytes.data.toList := by
  rw [ByteArray.toList, toList_loop]
  rfl

theorem bytes_append (s more : String) :
    (s ++ more).toUTF8.toList = s.toUTF8.toList ++ more.toUTF8.toList := by
  rw [toList_data, toList_data, toList_data, ← ByteArray.toList_data_append, String.toUTF8,
    String.toByteArray_append]
  rfl

/-- The shard of a text is that of its beginning, if that is long enough. -/
theorem shardOf_append {s : String} (h : 8 ≤ s.toUTF8.toList.length) (more : String) :
    shardOf (s ++ more) = shardOf s := by
  have hhash : hash (s ++ more) = hash s := by
    rw [hash, hash, bytes_append, List.take_append_of_le_length h]
  rw [shardOf, shardOf]
  simp only [hhash]

/-! ## A shard is filled -/

variable {texts : List String} {s : String}

/-- **A text that comes to a full shard is refused.** -/
theorem intern_of_crowded (hnodup : texts.Nodup) (hcount : slotCount ≤ texts.length)
    (hshard : ∀ s' ∈ texts, shardOf s' = shardOf s) (hs : s ∉ requests texts) :
    (history texts).intern s = .error (.shardOverflow (shardOf s) slotCount) := by
  -- all the texts have come before, and no two of them are the same
  have hsub : texts.toFinset ⊆ (ofShard (shardOf s) (requests texts)).toFinset := by
    intro s' hs'
    have hmem : s' ∈ texts := List.mem_toFinset.mp hs'
    exact List.mem_toFinset.mpr (mem_ofShard.mpr ⟨List.mem_append_right _ hmem, hshard s' hmem⟩)
  have hrank : slotCount ≤ rank (requests texts ++ [s]) s := by
    rw [rank_append_of_not_mem hs]
    refine hcount.trans ?_
    rw [← List.toFinset_card_of_nodup hnodup]
    exact Finset.card_le_card hsub
  rw [(filed_history texts).intern_eq, if_neg (Nat.not_lt.mpr hrank)]

/-- So many texts with the same beginning. -/
def lookalikes (count : Nat) : List String :=
  (List.range count).map fun i => "aaaaaaaa" ++ String.ofList (List.replicate i 'a')

theorem length_lookalikes (count : Nat) : (lookalikes count).length = count := by
  rw [lookalikes, List.length_map, List.length_range]

theorem nodup_lookalikes (count : Nat) : (lookalikes count).Nodup := by
  refine List.Nodup.map ?_ List.nodup_range
  intro i j hij
  -- no two are of the same length
  have hlength := congrArg String.length hij
  simpa using hlength

theorem shardOf_lookalikes {count : Nat} (hs : s ∈ lookalikes count) :
    shardOf s = shardOf "aaaaaaaa" := by
  obtain ⟨i, _, rfl⟩ := List.mem_map.mp hs
  exact shardOf_append (by decide +kernel) _

/-- All of them are written with one letter. -/
theorem not_mem_lookalikes {count : Nat} (hs : 'b' ∈ s.toList) : s ∉ lookalikes count := by
  intro hmem
  obtain ⟨i, _, rfl⟩ := List.mem_map.mp hmem
  simp at hs

/-- Enough texts leave no room for another one that begins as they do. -/
theorem intern_lookalike :
    (history (lookalikes slotCount)).intern "aaaaaaaab" =
      .error (.shardOverflow (shardOf "aaaaaaaab") slotCount) := by
  have hshard : shardOf "aaaaaaaab" = shardOf "aaaaaaaa" := by decide +kernel
  refine intern_of_crowded (nodup_lookalikes _) (length_lookalikes _).ge
    (fun s' hs' => (shardOf_lookalikes hs').trans hshard.symm) fun hmem => ?_
  rcases List.mem_append.mp hmem with hmem | hmem
  · exact absurd hmem (by decide)
  · exact not_mem_lookalikes (by decide) hmem

end SyntaxGraph.Interner
