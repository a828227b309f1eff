import SyntaxGraph.Proofs.Likeness
import SyntaxGraph.Proofs.Names
import SyntaxGraph.Proofs.Quoting

/-!
# A description tells kinds apart

A description is read in three steps. The words for the kind end where the first
parenthesis stands, for they have none themselves; what is between that one and
the last is the payload, whatever parentheses stand in it. In the words the category
ends at the first colon. And each shape has words of its own, so it is clear what
the payload is the payload of.

An identifier stands in the payload as it is and may have commas in it. A word
behind it never has one, so it is the last comma that ends the identifier. The
digits of a number have none either, so there it is the first.

Floats are left out: there is more than one NaN, and they are all written alike.
-/

namespace SyntaxGraph

/-! ## The words and the payload -/

namespace Text

/-- The items of a payload as one text, if there are any. -/
def listed? : List String → Option String
  | [] => none
  | items => some (", ".intercalate items)

@[simp] theorem listed?_nil : listed? [] = none := rfl

@[simp] theorem listed?_singleton (s : String) : listed? [s] = some s := by simp [listed?]

@[simp] theorem listed?_pair (s t : String) : listed? [s, t] = some (s ++ ", " ++ t) := by
  simp [listed?]

/-- A payload in parentheses, and nothing if there is no payload. -/
def enclosed : Option String → List Char
  | none => []
  | some payload => '(' :: (payload.toList ++ [')'])

/-- Words without a parenthesis end where the payload begins. -/
theorem append_enclosed_inj {words words' : List Char} {payload payload' : Option String}
    (hw : '(' ∉ words) (hw' : '(' ∉ words')
    (h : words ++ enclosed payload = words' ++ enclosed payload') :
    words = words' ∧ payload = payload' := by
  cases payload with
  | none =>
    cases payload' with
    | none => exact ⟨List.append_cancel_right h, rfl⟩
    | some text' =>
      rw [enclosed, List.append_nil] at h
      exact absurd (h ▸ List.mem_append_right _ List.mem_cons_self) hw
  | some text =>
    cases payload' with
    | none =>
      rw [enclosed, enclosed, List.append_nil] at h
      exact absurd (h ▸ List.mem_append_right _ List.mem_cons_self) hw'
    | some text' =>
      obtain ⟨hwords, hrest⟩ := append_mark_inj hw hw' h
      exact ⟨hwords, congrArg some (String.toList_inj.mp (List.append_cancel_right hrest))⟩

/-- What the words of a description are written with. -/
def isWordChar (c : Char) : Bool := c.isAlpha || c == ':' || c == '-'

/-- The text is made of such words. -/
def IsWords (s : String) : Prop := s.toList.all isWordChar = true

instance (s : String) : Decidable (IsWords s) := inferInstanceAs (Decidable (_ = true))

theorem IsWords.not_mem {s : String} {mark : Char} (hs : IsWords s)
    (hmark : isWordChar mark = false) : mark ∉ s.toList := by
  intro hmem
  have hword := List.all_eq_true.mp hs mark hmem
  rw [hmark] at hword
  cases hword

end Text

theorem PassingMode.isWords_label (mode : PassingMode) : Text.IsWords mode.label := by
  cases mode <;> decide

theorem Linkage.isWords_label (linkage : Linkage) : Text.IsWords linkage.label := by
  cases linkage <;> decide

namespace Kind

theorem toList_describe (k : Kind String) :
    k.describe.toList = k.variant.toList ++ Text.enclosed (Text.listed? k.details) := by
  rw [describe]
  cases k.details with
  | nil => exact (List.append_nil _).symm
  | cons item rest =>
    simp only [String.toList_append, Text.listed?, Text.enclosed, List.append_assoc]
    rfl

/-- The word for a shape, of kinds that have one. -/
def shapeLabel? : Kind String → Option String
  | type shape => some shape.label
  | qualifiedType _ => none
  | literal value => some value.label
  | expression shape => some shape.label
  | statement shape => some shape.label
  | declaration what => some what.label

theorem toList_variant (k : Kind String) : k.variant.toList =
    k.category.label.toList ++ (k.shapeLabel?.elim [] fun s => ':' :: ':' :: s.toList) := by
  cases k with
  | qualifiedType _ => exact (List.append_nil _).symm
  | _ =>
    simp only [variant, variantOf, String.toList_append, List.append_assoc]
    rfl

theorem isWords_shapeLabel (k : Kind String) : ∀ s ∈ k.shapeLabel?, Text.IsWords s := by
  intro s hs
  cases k with
  | qualifiedType _ => cases hs
  | type shape =>
    obtain rfl := Option.some.inj hs
    cases shape with
    | integer sign _ => cases sign <;> simp only [TypeShape.label] <;> decide
    | _ =>
      simp only [TypeShape.label]
      decide
  | literal value =>
    obtain rfl := Option.some.inj hs
    cases value <;> simp only [Literal.label] <;> decide
  | expression shape =>
    obtain rfl := Option.some.inj hs
    cases shape <;> simp only [Expression.label] <;> decide
  | statement shape =>
    obtain rfl := Option.some.inj hs
    cases shape <;> decide
  | declaration what =>
    obtain rfl := Option.some.inj hs
    cases what <;> simp only [Declaration.label] <;> decide

/-- **The words for a kind** are made of letters, colons and hyphens. -/
theorem isWords_variant (k : Kind String) : Text.IsWords k.variant := by
  have hcategory : Text.IsWords k.category.label := by
    cases k.category <;> decide
  rw [Text.IsWords, toList_variant, List.all_append, hcategory, Bool.true_and]
  cases hs : k.shapeLabel? with
  | none => rfl
  | some s => exact k.isWords_shapeLabel s hs

/-- The words and the payload can be read off a description. -/
theorem describe_parts {k k' : Kind String} (h : k.describe = k'.describe) :
    k.variant = k'.variant ∧ Text.listed? k.details = Text.listed? k'.details := by
  have hlists := congrArg String.toList h
  rw [toList_describe, toList_describe] at hlists
  obtain ⟨hwords, hpayload⟩ := Text.append_enclosed_inj (k.isWords_variant.not_mem rfl)
    (k'.isWords_variant.not_mem rfl) hlists
  exact ⟨String.toList_inj.mp hwords, hpayload⟩

/-- The category and the shape can be read off the words. -/
theorem variant_parts {k k' : Kind String} (h : k.variant = k'.variant) :
    k.category = k'.category ∧ k.shapeLabel? = k'.shapeLabel? := by
  have hcolon : ∀ category : Category, ':' ∉ category.label.toList := by
    intro category
    cases category <;> decide
  have hlabels : (Category.all.map Category.label).Nodup := by decide
  have hall : ∀ category, category ∈ Category.all := by
    intro category
    cases category <;> decide
  have hsame : ∀ {category category' : Category}, category.label.toList = category'.label.toList →
      category = category' := fun heq =>
    List.inj_on_of_nodup_map hlabels (hall _) (hall _) (String.toList_inj.mp heq)
  have hlists := congrArg String.toList h
  rw [toList_variant, toList_variant] at hlists
  cases hs : k.shapeLabel? <;> cases hs' : k'.shapeLabel? <;>
    simp only [hs, hs', Option.elim, List.append_nil] at hlists
  case none.none => exact ⟨hsame hlists, rfl⟩
  case none.some s' => exact absurd (hlists ▸ by simp) (hcolon k.category)
  case some.none s => exact absurd (hlists ▸ by simp) (hcolon k'.category)
  case some.some s s' =>
    obtain ⟨hcategory, hshape⟩ := Text.append_mark_inj (hcolon _) (hcolon _) hlists
    exact ⟨hsame hcategory, congrArg some (String.toList_inj.mp (List.cons.inj hshape).2)⟩

end Kind

/-! ## Numbers and words behind a comma -/

namespace Text

theorem toString_width_inj {width width' : UInt16}
    (h : toString width.toNat = toString width'.toNat) : width = width' :=
  UInt16.toNat_inj.mp (toString_nat_inj.mp h)

theorem toList_comma (s t : String) :
    (s ++ ", " ++ t).toList = s.toList ++ ',' :: ' ' :: t.toList := by
  rw [String.toList_append, String.toList_append, List.append_assoc]
  rfl

/-- Of two texts with a comma between them the first one can be told if no comma is in it. -/
theorem append_comma_inj {s s' t t' : String} (hs : ',' ∉ s.toList) (hs' : ',' ∉ s'.toList)
    (h : s ++ ", " ++ t = s' ++ ", " ++ t') : s = s' ∧ t = t' := by
  have hlists := congrArg String.toList h
  rw [toList_comma, toList_comma] at hlists
  obtain ⟨hfirst, hsecond⟩ := append_mark_inj hs hs' hlists
  exact ⟨String.toList_inj.mp hfirst, String.toList_inj.mp (List.cons.inj hsecond).2⟩

/-- And so it can if no comma is in the second one. -/
theorem append_last_comma_inj {s s' t t' : String} (ht : ',' ∉ t.toList) (ht' : ',' ∉ t'.toList)
    (h : s ++ ", " ++ t = s' ++ ", " ++ t') : s = s' ∧ t = t' := by
  have hlists := congrArg String.toList h
  rw [toList_comma, toList_comma] at hlists
  obtain ⟨hfirst, hsecond⟩ := append_last_mark_inj (by simpa using ht) (by simpa using ht') hlists
  exact ⟨String.toList_inj.mp hfirst, String.toList_inj.mp (List.cons.inj hsecond).2⟩

end Text

/-! ## What shape and payload tell -/

theorem TypeShape.eq_of_label {shape shape' : TypeShape String}
    (hlabel : shape.label = shape'.label)
    (hpayload : Text.listed? shape.details = Text.listed? shape'.details) : shape = shape' := by
  have hplain : ∀ {s : TypeShape String}, Text.listed? s.details = none → s ∈ plain := by
    intro s hs
    cases s with
    | integer | name => simp [details] at hs
    | _ => decide
  have hlabels : ((plain : List (TypeShape String)).map label).Nodup := by decide
  cases shape with
  | integer sign width =>
    cases shape' with
    | integer sign' width' =>
      have hwidth : width = width' := Text.toString_width_inj (by simpa [details] using hpayload)
      cases sign <;> cases sign' <;> simp_all [label]
    | name => cases sign <;> simp [label] at hlabel
    | _ => simp [details] at hpayload
  | name id =>
    cases shape' with
    | integer sign' => cases sign' <;> simp [label] at hlabel
    | name id' => simpa [details] using hpayload
    | _ => simp [details] at hpayload
  | _ => exact List.inj_on_of_nodup_map hlabels (hplain rfl) (hplain hpayload.symm) hlabel

theorem Literal.eq_of_label {value value' : Literal String} (hreal : ∀ bits, value ≠ .real bits)
    (hlabel : value.label = value'.label)
    (hpayload : Text.listed? value.details = Text.listed? value'.details) : value = value' := by
  cases value with
  | null =>
    cases value' with
    | null => rfl
    | _ => simp [label] at hlabel
  | bool flag =>
    cases value' with
    | bool flag' => cases flag <;> cases flag' <;> simp_all [details]
    | _ => simp [label] at hlabel
  | string text =>
    cases value' with
    | string text' =>
      have htext : Text.quote text = Text.quote text' := by simpa [details] using hpayload
      rw [Text.quote_inj.mp htext]
    | _ => simp [label] at hlabel
  | signed number width =>
    cases value' with
    | signed number' width' =>
      simp only [details, Text.listed?_pair, Option.some.injEq] at hpayload
      obtain ⟨hnumber, hwidth⟩ := Text.append_comma_inj
        (Text.not_mem_toString_int (by decide) (by decide) _)
        (Text.not_mem_toString_int (by decide) (by decide) _) hpayload
      rw [Int64.toInt_inj.mp (Text.toString_int_inj.mp hnumber), Text.toString_width_inj hwidth]
    | _ => simp [label] at hlabel
  | unsigned number width =>
    cases value' with
    | unsigned number' width' =>
      simp only [details, Text.listed?_pair, Option.some.injEq] at hpayload
      obtain ⟨hnumber, hwidth⟩ := Text.append_comma_inj (Text.not_mem_toString_nat (by decide) _)
        (Text.not_mem_toString_nat (by decide) _) hpayload
      rw [UInt64.toNat_inj.mp (Text.toString_nat_inj.mp hnumber), Text.toString_width_inj hwidth]
    | _ => simp [label] at hlabel
  | real bits => exact absurd rfl (hreal bits)
  | tuple =>
    cases value' with
    | tuple => rfl
    | _ => simp [label] at hlabel

theorem Expression.eq_of_label {shape shape' : Expression String}
    (hlabel : shape.label = shape'.label)
    (hpayload : Text.listed? shape.details = Text.listed? shape'.details) : shape = shape' := by
  have hplain : ∀ {s : Expression String}, Text.listed? s.details = none → s ∈ plain := by
    intro s hs
    cases s with
    | keyword | name => simp [details] at hs
    | _ => decide
  have hlabels : ((plain : List (Expression String)).map label).Nodup := by decide
  have hwords : (Keyword.all.map Keyword.spelling).Nodup := by decide
  cases shape with
  | keyword word =>
    cases shape' with
    | keyword word' =>
      have hall : ∀ w : Keyword, w ∈ Keyword.all := by
        intro w
        cases w <;> decide
      have hspelling : word.spelling = word'.spelling := by simpa [details] using hpayload
      rw [List.inj_on_of_nodup_map hwords (hall word) (hall word') hspelling]
    | name => simp [label] at hlabel
    | _ => simp [details] at hpayload
  | name id =>
    cases shape' with
    | keyword => simp [label] at hlabel
    | name id' => simpa [details] using hpayload
    | _ => simp [details] at hpayload
  | _ => exact List.inj_on_of_nodup_map hlabels (hplain rfl) (hplain hpayload.symm) hlabel

theorem Statement.eq_of_label {shape shape' : Statement} (hlabel : shape.label = shape'.label) :
    shape = shape' := by
  have hall : ∀ s : Statement, s ∈ all := by
    intro s
    cases s <;> decide
  have hlabels : (all.map label).Nodup := by decide
  exact List.inj_on_of_nodup_map hlabels (hall shape) (hall shape') hlabel

theorem PassingMode.label_inj {mode mode' : PassingMode} :
    mode.label = mode'.label ↔ mode = mode' := by
  cases mode <;> cases mode' <;> simp [label]

theorem Linkage.label_inj {linkage linkage' : Linkage} :
    linkage.label = linkage'.label ↔ linkage = linkage' := by
  cases linkage <;> cases linkage' <;> simp [label]

theorem Declaration.eq_of_label {what what' : Declaration String}
    (hlabel : what.label = what'.label)
    (hpayload : Text.listed? what.details = Text.listed? what'.details) : what = what' := by
  cases what with
  | parameter id mode =>
    cases what' with
    | parameter id' mode' =>
      simp only [details, Text.listed?_pair, Option.some.injEq] at hpayload
      -- the identifier may have commas in it, the word behind it has none
      obtain ⟨hid, hmode⟩ := Text.append_last_comma_inj (mode.isWords_label.not_mem rfl)
        (mode'.isWords_label.not_mem rfl) hpayload
      rw [hid, PassingMode.label_inj.mp hmode]
    | _ => simp [label] at hlabel
  | globalVariable id linkage =>
    cases what' with
    | globalVariable id' linkage' =>
      simp only [details, Text.listed?_pair, Option.some.injEq] at hpayload
      obtain ⟨hid, hlinkage⟩ := Text.append_last_comma_inj (linkage.isWords_label.not_mem rfl)
        (linkage'.isWords_label.not_mem rfl) hpayload
      rw [hid, Linkage.label_inj.mp hlinkage]
    | _ => simp [label] at hlabel
  | tupleElement id =>
    cases what' with
    | tupleElement id' => cases id <;> cases id' <;> simp_all [details, id?]
    | _ => simp [label] at hlabel
  | field id =>
    cases what' with
    | field id' => simpa [details, id?] using hpayload
    | _ => simp [label] at hlabel
  | localVariable id =>
    cases what' with
    | localVariable id' => simpa [details, id?] using hpayload
    | _ => simp [label] at hlabel
  | constant id =>
    cases what' with
    | constant id' => simpa [details, id?] using hpayload
    | _ => simp [label] at hlabel
  | type id =>
    cases what' with
    | type id' => simpa [details, id?] using hpayload
    | _ => simp [label] at hlabel

theorem Qualifiers.eq_of_labels {q q' : Qualifiers}
    (h : Text.listed? q.labels = Text.listed? q'.labels) : q = q' := by
  obtain ⟨const, inferred⟩ := q
  obtain ⟨const', inferred'⟩ := q'
  cases const <;> cases inferred <;> cases const' <;> cases inferred' <;> simp_all [labels]

/-! ## Kinds and their descriptions -/

namespace Kind

/-- Kinds that are described alike are equal, unless they are floats. -/
theorem eq_of_describe {k k' : Kind String} (hreal : ∀ bits, k ≠ .literal (.real bits))
    (h : k.describe = k'.describe) : k = k' := by
  obtain ⟨hvariant, hpayload⟩ := describe_parts h
  obtain ⟨hcategory, hshape⟩ := variant_parts hvariant
  -- kinds of one category have one constructor
  cases k with
  | type shape =>
    cases k' with
    | type shape' => rw [TypeShape.eq_of_label (Option.some.inj hshape) hpayload]
    | _ => cases hcategory
  | qualifiedType q =>
    cases k' with
    | qualifiedType q' => rw [Qualifiers.eq_of_labels hpayload]
    | _ => cases hcategory
  | literal value =>
    cases k' with
    | literal value' =>
      have hvalue : ∀ bits, value ≠ .real bits := fun bits heq => hreal bits (congrArg literal heq)
      rw [Literal.eq_of_label hvalue (Option.some.inj hshape) hpayload]
    | _ => cases hcategory
  | expression shape =>
    cases k' with
    | expression shape' => rw [Expression.eq_of_label (Option.some.inj hshape) hpayload]
    | _ => cases hcategory
  | statement shape =>
    cases k' with
    | statement shape' => rw [Statement.eq_of_label (Option.some.inj hshape)]
    | _ => cases hcategory
  | declaration what =>
    cases k' with
    | declaration what' => rw [Declaration.eq_of_label (Option.some.inj hshape) hpayload]
    | _ => cases hcategory

/-- The names can be found again by their texts. -/
theorem map_name?_lookup {calls : List String} {k : Kind Name}
    (hk : ∀ n ∈ k.name?, ∃ s, Interner.Issued calls s n) :
    (k.map (Interner.history calls).lookup).map
      (fun s => ((Interner.history calls).name? s).getD .empty) = k := by
  have hback : ∀ n ∈ k.name?, ((Interner.history calls).name?
      ((Interner.history calls).lookup n)).getD .empty = id n := by
    intro n hn
    obtain ⟨s, hs⟩ := hk n hn
    have hname := Interner.issued_iff.mp hs
    rw [(Interner.sound_history calls).lookup_eq hname, hname, Option.getD_some, id]
  rw [map_map]
  exact (map_congr hback).trans k.map_id

/-- **Kinds are described alike exactly if they are equal**, whatever texts their names stand for,
floats aside. -/
theorem describe_eq_iff (calls : List String) {k k' : Kind Name}
    (hk : ∀ n ∈ k.name?, ∃ s, Interner.Issued calls s n)
    (hk' : ∀ n ∈ k'.name?, ∃ s, Interner.Issued calls s n)
    (hreal : ∀ bits, k ≠ .literal (.real bits)) :
    (k.map (Interner.history calls).lookup).describe =
      (k'.map (Interner.history calls).lookup).describe ↔ k = k' := by
  constructor
  · intro h
    have hspelled : ∀ bits, k.map (Interner.history calls).lookup ≠ .literal (.real bits) := by
      intro bits hbits
      have hkind := map_name?_lookup hk
      rw [hbits] at hkind
      exact hreal bits hkind.symm
    rw [← map_name?_lookup hk, eq_of_describe hspelled h, map_name?_lookup hk']
  · rintro rfl
    rfl

/-- A comma in a name is not taken for the one behind the name. -/
theorem describe_ne_of_commas :
    let t := Interner.history ["a", "a, in"]
    let parameter : Kind Name := .declaration (.parameter (.ofParts 1 0) .input)
    let lookalike : Kind Name := .declaration (.parameter (.ofParts 10 0) .inout)
    (parameter.map t.lookup).describe = "declaration::Parameter(a, in)"
      ∧ (lookalike.map t.lookup).describe = "declaration::Parameter(a, in, inout)"
      ∧ (parameter.map t.lookup).describe ≠ (lookalike.map t.lookup).describe := by
  intro t parameter lookalike
  have ha : Interner.Issued ["a", "a, in"] "a" (.ofParts 1 0) :=
    Interner.issued_iff.mpr (by decide +kernel)
  have hcomma : Interner.Issued ["a", "a, in"] "a, in" (.ofParts 10 0) :=
    Interner.issued_iff.mpr (by decide +kernel)
  have hparameter : ∀ n ∈ parameter.name?, ∃ s, Interner.Issued ["a", "a, in"] s n := by
    rintro n ⟨⟩
    exact ⟨_, ha⟩
  have hlookalike : ∀ n ∈ lookalike.name?, ∃ s, Interner.Issued ["a", "a, in"] s n := by
    rintro n ⟨⟩
    exact ⟨_, hcomma⟩
  have hreal : ∀ bits, parameter ≠ .literal (.real bits) := by simp [parameter]
  have hne : parameter ≠ lookalike := by decide
  have hsame := describe_eq_iff ["a", "a, in"] hparameter hlookalike hreal
  exact ⟨by decide +kernel, by decide +kernel, fun h => hne (hsame.mp h)⟩

end Kind

end SyntaxGraph
