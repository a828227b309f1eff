import SyntaxGraph.Text.Quoted
import SyntaxGraph.Decimal.Binary64

/-!
# What can be read off a text

A text that was put together can be taken apart again where a mark shows that
does not occur on one side of it. For quoted text the marks are the backslash,
which never stands for itself, and the brace behind a code point, which is no
digit. So every character can be read off, one after the other, and quoted texts
are equal exactly if the texts are.

A number is its digits, with a sign before them if it is negative, so it can be told too.
Neither a number nor a quoted text ever has a line break in it.
-/

namespace SyntaxGraph.Text

/-! ## Marks -/

/-- What stands before the first mark, and what stands behind it. -/
theorem append_mark_inj {mark : Char} {s s' t t' : List Char} (hs : mark ∉ s) (hs' : mark ∉ s')
    (h : s ++ mark :: t = s' ++ mark :: t') : s = s' ∧ t = t' := by
  induction s generalizing s' with
  | nil =>
    cases s' with
    | nil => exact ⟨rfl, (List.cons.inj h).2⟩
    | cons c s' =>
      obtain ⟨rfl, _⟩ := List.cons.inj h
      exact absurd List.mem_cons_self hs'
  | cons c s ih =>
    cases s' with
    | nil =>
      obtain ⟨rfl, _⟩ := List.cons.inj h
      exact absurd List.mem_cons_self hs
    | cons c' s' =>
      obtain ⟨rfl, htail⟩ := List.cons.inj h
      obtain ⟨rfl, rfl⟩ := ih (fun hm => hs (List.mem_cons_of_mem _ hm))
        (fun hm => hs' (List.mem_cons_of_mem _ hm)) htail
      exact ⟨rfl, rfl⟩

/-- What stands before the last mark, and what stands behind it. -/
theorem append_last_mark_inj {mark : Char} {s s' t t' : List Char} (ht : mark ∉ t)
    (ht' : mark ∉ t') (h : s ++ mark :: t = s' ++ mark :: t') : s = s' ∧ t = t' := by
  have hreverse : t.reverse ++ mark :: s.reverse = t'.reverse ++ mark :: s'.reverse := by
    simpa using congrArg List.reverse h
  obtain ⟨hbehind, hbefore⟩ := append_mark_inj (by simpa using ht) (by simpa using ht') hreverse
  exact ⟨List.reverse_inj.mp hbefore, List.reverse_inj.mp hbehind⟩

/-! ## Digits -/

theorem exists_digit {base n : Nat} {c : Char} (hbase : 1 < base)
    (h : c ∈ Nat.toDigits base n) : ∃ digit, c = Nat.digitChar digit := by
  induction n using Nat.strongRecOn with
  | ind n ih =>
    by_cases hn : n < base
    · rw [Nat.toDigits_of_lt_base hn] at h
      exact ⟨n, List.mem_singleton.mp h⟩
    · rw [Nat.toDigits_of_base_le hbase (Nat.le_of_not_lt hn)] at h
      rcases List.mem_append.mp h with h | h
      · exact ih (n / base) (Nat.div_lt_self (by omega) hbase) h
      · exact ⟨n % base, List.mem_singleton.mp h⟩

/-- Numbers with the same digits are the same. -/
theorem toDigits_sixteen_inj {m n : Nat} (h : Nat.toDigits 16 m = Nat.toDigits 16 n) : m = n := by
  have hdigit : ∀ a < 16, ∀ b < 16, Nat.digitChar a = Nat.digitChar b → a = b := by decide
  induction m using Nat.strongRecOn generalizing n with
  | ind m ih =>
    -- numbers of one digit, and of more
    by_cases hm : m < 16 <;> by_cases hn : n < 16
    · rw [Nat.toDigits_of_lt_base hm, Nat.toDigits_of_lt_base hn] at h
      exact hdigit m hm n hn (List.singleton_inj.mp h)
    · rw [Nat.toDigits_of_lt_base hm, Nat.toDigits_of_base_le (by decide) (by omega)] at h
      have hlength := congrArg List.length h
      have hpos := Nat.length_toDigits_pos (b := 16) (n := n / 16)
      simp only [List.length_append, List.length_singleton] at hlength
      omega
    · rw [Nat.toDigits_of_lt_base hn, Nat.toDigits_of_base_le (by decide) (by omega)] at h
      have hlength := congrArg List.length h
      have hpos := Nat.length_toDigits_pos (b := 16) (n := m / 16)
      simp only [List.length_append, List.length_singleton] at hlength
      omega
    · rw [Nat.toDigits_of_base_le (by decide) (Nat.le_of_not_lt hm),
        Nat.toDigits_of_base_le (by decide) (Nat.le_of_not_lt hn)] at h
      obtain ⟨hupper, hlower⟩ := List.append_inj' h rfl
      have hquotient : m / 16 = n / 16 := ih (m / 16) (by omega) hupper
      have hremainder : m % 16 = n % 16 :=
        hdigit _ (by omega) _ (by omega) (List.singleton_inj.mp hlower)
      omega

theorem codePointDigits_inj {c c' : Char} (h : codePointDigits c = codePointDigits c') : c = c' :=
  Char.toNat_inj.mp (toDigits_sixteen_inj h)

/-! ## Numbers -/

theorem not_mem_toString_nat {mark : Char} (hmark : mark.isDigit = false) (n : Nat) :
    mark ∉ (toString n).toList := by
  rw [Nat.toString_eq_ofList_toDigits, String.toList_ofList]
  intro hmem
  have hdigit := Nat.isDigit_of_mem_toDigits (by decide) (by decide) hmem
  rw [hmark] at hdigit
  cases hdigit

theorem toString_nat_inj {m n : Nat} : toString m = toString n ↔ m = n := by
  constructor
  · intro h
    rw [Nat.toString_eq_ofList_toDigits, Nat.toString_eq_ofList_toDigits] at h
    have hdigits := congrArg (fun ds => Nat.ofDigitChars 10 ds 0) (String.ofList_injective h)
    simpa only [Nat.ofDigitChars_ten_toDigits] using hdigits
  · rintro rfl
    rfl

theorem toString_negSucc (n : Nat) : toString (Int.negSucc n) = "-" ++ toString (n + 1) := rfl

theorem not_mem_toString_int {mark : Char} (hmark : mark.isDigit = false) (hsign : mark ≠ '-')
    (i : Int) : mark ∉ (toString i).toList := by
  cases i with
  | ofNat n => exact not_mem_toString_nat hmark n
  | negSucc n =>
    rw [toString_negSucc, String.toList_append, List.mem_append]
    rintro (hmem | hmem)
    · exact hsign (List.mem_singleton.mp hmem)
    · exact not_mem_toString_nat hmark (n + 1) hmem

theorem toString_int_inj {i j : Int} : toString i = toString j ↔ i = j := by
  -- a sign is no digit
  have hsign : ∀ m n : Nat, toString (Int.ofNat m) ≠ toString (Int.negSucc n) := by
    intro m n h
    have hmem : '-' ∈ (toString (Int.ofNat m)).toList := by
      rw [h, toString_negSucc, String.toList_append]
      exact List.mem_append_left _ (List.mem_singleton.mpr rfl)
    exact not_mem_toString_nat (by decide) m hmem
  refine ⟨fun h => ?_, fun h => congrArg toString h⟩
  cases i with
  | ofNat m =>
    cases j with
    | ofNat n => exact congrArg Int.ofNat (toString_nat_inj.mp h)
    | negSucc n => exact absurd h (hsign m n)
  | negSucc m =>
    cases j with
    | ofNat n => exact absurd h.symm (hsign n m)
    | negSucc n =>
      rw [toString_negSucc, toString_negSucc] at h
      have hlists := congrArg String.toList h
      rw [String.toList_append, String.toList_append] at hlists
      have hnext := toString_nat_inj.mp (String.toList_inj.mp (List.append_cancel_left hlists))
      rw [Nat.succ.inj hnext]

/-- The digits of a number, the zeros and the point of a positional decimal are on one line. -/
theorem newline_not_mem_positional (d : Decimal.Scaled) : '\n' ∉ d.positional.toList := by
  have hdigits : '\n' ∉ (Decimal.Scaled.trim (Nat.toDigits 10 d.digits)).1 := by
    intro hmem
    have hkept := List.dropWhile_subset _ (List.mem_reverse.mp hmem)
    have hdigit := Nat.isDigit_of_mem_toDigits (by decide) (by decide) (List.mem_reverse.mp hkept)
    exact absurd hdigit (by decide)
  have hzeros : ∀ n, '\n' ∉ List.replicate n '0' := fun n hmem =>
    absurd (List.eq_of_mem_replicate hmem) (by decide)
  have hpadded : ∀ n, '\n' ∉ List.replicate n '0' ++
      (Decimal.Scaled.trim (Nat.toDigits 10 d.digits)).1 := fun n hmem =>
    (List.mem_append.mp hmem).elim (hzeros n) hdigits
  simp only [Decimal.Scaled.positional]
  split
  · rw [String.toList_ofList, List.mem_append, not_or]
    exact ⟨hdigits, hzeros _⟩
  · rw [String.toList_ofList, List.mem_append, List.mem_cons]
    rintro (hmem | hmem | hmem)
    · exact hpadded _ (List.mem_of_mem_take hmem)
    · exact absurd hmem (by decide)
    · exact hpadded _ (List.mem_of_mem_drop hmem)

theorem newline_not_mem_float (bits : UInt64) :
    '\n' ∉ (Decimal.Binary64.text bits).toList := by
  have hmagnitude : '\n' ∉ (Decimal.Binary64.magnitudeText bits).toList := by
    rw [Decimal.Binary64.magnitudeText]
    split
    · decide
    · split
      · decide
      · cases (Decimal.Binary64.interval bits).shortest? Decimal.Binary64.enoughDigits with
        | none => decide
        | some d => exact newline_not_mem_positional d
  rw [Decimal.Binary64.text]
  split
  · decide
  · rw [String.toList_append, List.mem_append, not_or]
    refine ⟨?_, hmagnitude⟩
    split <;> decide

/-! ## Quoted characters -/

/-- The characters that are written by a letter of their own, with that letter. -/
def letters : List (Char × Char) :=
  [('\x00', '0'), ('\t', 't'), ('\r', 'r'), ('\n', 'n'), ('"', '"'), ('\\', '\\')]

/-- The ways in which a character can be written inside quotes. -/
inductive Quoted (c : Char) : List Char → Prop where
  | plain : c ≠ '\\' → c ≠ '\n' → Quoted c [c]
  | letter {l : Char} : (c, l) ∈ letters → Quoted c ['\\', l]
  | code : Quoted c ('\\' :: 'u' :: '\x7b' :: (codePointDigits c ++ ['\x7d']))

theorem quoted_quoteChar (c : Char) : Quoted c (quoteChar c) := by
  unfold quoteChar
  split
  next h => exact .letter (by simp [letters, h])
  split
  next h => exact .letter (by simp [letters, h])
  split
  next h => exact .letter (by simp [letters, h])
  split
  next h => exact .letter (by simp [letters, h])
  split
  next h => exact .letter (by simp [letters, h])
  split
  next h => exact .letter (by simp [letters, h])
  next hline _ hslash =>
    split
    · exact .code
    · exact .plain hslash hline

theorem Quoted.newline_not_mem {c : Char} {code : List Char} (h : Quoted c code) :
    '\n' ∉ code := by
  cases h with
  | plain _ hline => simpa using hline.symm
  | letter hl =>
    have hletters : ∀ p ∈ letters, '\n' ∉ ['\\', p.2] := by decide
    exact hletters _ hl
  | code =>
    intro hmem
    have hdigits : '\n' ∈ codePointDigits c := by simpa using hmem
    obtain ⟨digit, hdigit⟩ := exists_digit (by decide) hdigits
    exact Nat.digitChar_ne '\n' (by decide) hdigit.symm

/-- **A quoted character can be read off**, whatever follows it. -/
theorem Quoted.append_inj {c c' : Char} {code code' s s' : List Char} (h : Quoted c code)
    (h' : Quoted c' code') (heq : code ++ s = code' ++ s') : c = c' ∧ s = s' := by
  have hletters : ∀ p ∈ letters, p.2 ≠ 'u' := by decide
  have hunique : ∀ p ∈ letters, ∀ q ∈ letters, p.2 = q.2 → p.1 = q.1 := by decide
  have hbrace : ∀ c : Char, '\x7d' ∉ codePointDigits c := by
    intro c hmem
    obtain ⟨digit, hdigit⟩ := exists_digit (by decide) hmem
    exact Nat.digitChar_ne '\x7d' (by decide) hdigit.symm
  cases h with
  | plain hslash _ =>
    cases h' with
    | plain => exact List.cons.inj heq
    | letter | code => exact absurd (List.cons.inj heq).1 hslash
  | letter hl =>
    cases h' with
    | plain hslash _ => exact absurd (List.cons.inj heq).1.symm hslash
    | letter hl' =>
      obtain ⟨hletter, hs⟩ := List.cons.inj (List.cons.inj heq).2
      exact ⟨hunique _ hl _ hl' hletter, hs⟩
    | code => exact absurd (List.cons.inj (List.cons.inj heq).2).1 (hletters _ hl)
  | code =>
    cases h' with
    | plain hslash _ => exact absurd (List.cons.inj heq).1.symm hslash
    | letter hl' => exact absurd (List.cons.inj (List.cons.inj heq).2).1.symm (hletters _ hl')
    | code =>
      simp only [List.cons_append, List.append_assoc, List.nil_append, List.cons.injEq,
        true_and] at heq
      obtain ⟨hdigits, hs⟩ := append_mark_inj (hbrace c) (hbrace c') heq
      exact ⟨codePointDigits_inj hdigits, hs⟩

/-! ## Quoted texts -/

theorem newline_not_mem_quote (s : String) : '\n' ∉ (quote s).toList := by
  have hinner : '\n' ∉ s.toList.flatMap quoteChar := by
    intro hmem
    obtain ⟨c, _, hc⟩ := List.mem_flatMap.mp hmem
    exact (quoted_quoteChar c).newline_not_mem hc
  simpa [quote] using hinner

theorem flatMap_quoteChar_inj {s s' : List Char}
    (h : s.flatMap quoteChar = s'.flatMap quoteChar) : s = s' := by
  have hne : ∀ c, quoteChar c ≠ [] := by
    intro c hnil
    have hquoted := quoted_quoteChar c
    rw [hnil] at hquoted
    cases hquoted
  induction s generalizing s' with
  | nil =>
    cases s' with
    | nil => rfl
    | cons c s' => exact absurd (List.append_eq_nil_iff.mp h.symm).1 (hne c)
  | cons c s ih =>
    cases s' with
    | nil => exact absurd (List.append_eq_nil_iff.mp h).1 (hne c)
    | cons c' s' =>
      obtain ⟨rfl, hrest⟩ := (quoted_quoteChar c).append_inj (quoted_quoteChar c') h
      rw [ih hrest]

/-- **Quoted texts are equal exactly if the texts are.** -/
theorem quote_inj {s s' : String} : quote s = quote s' ↔ s = s' := by
  constructor
  · intro h
    have hlists := (List.cons.inj (String.ofList_injective h)).2
    exact String.toList_inj.mp (flatMap_quoteChar_inj (List.append_cancel_right hlists))
  · rintro rfl
    rfl

end SyntaxGraph.Text
