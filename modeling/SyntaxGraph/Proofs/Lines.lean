import SyntaxGraph.Proofs.Descriptions
import SyntaxGraph.Proofs.Outlines

/-!
# The lines of an outline

An outline ends every item with a line break, and an item is a node of the tree or
a reference in it. What it says about a node has no other line break in it, as far
as that is in its own hands: the words for a kind have none, nor has a number, and
the text of a string literal is quoted. An identifier is spelled as it is.

So the line breaks of an outline are counted: one for each item, and those in the
identifiers of the tree. If these have none, the lines of the outline are its
items, one by one. Otherwise a line goes on where another one is expected, and a
name can be chosen such that the rest of it looks like the line of a node.
-/

namespace SyntaxGraph

/-! ## Line breaks in a description -/

/-- How many line breaks a text has. -/
def Text.breaks (s : String) : Nat := s.toList.count '\n'

namespace Text

@[simp] theorem breaks_append (s t : String) : breaks (s ++ t) = breaks s + breaks t := by
  rw [breaks, String.toList_append, List.count_append]
  rfl

theorem breaks_eq_zero {s : String} : breaks s = 0 ↔ '\n' ∉ s.toList := List.count_eq_zero

theorem breaks_join (texts : List String) :
    breaks (String.join texts) = (texts.map breaks).sum := by
  rw [breaks, String.toList_join, List.count_flatMap]
  rfl

theorem breaks_intercalate (items : List String) :
    breaks (", ".intercalate items) = (items.map breaks).sum := by
  have hcomma : breaks ", " = 0 := by decide
  induction items with
  | nil => simp [breaks]
  | cons item rest ih =>
    cases rest with
    | nil => simp
    | cons next rest =>
      rw [String.intercalate_cons_cons, breaks_append, breaks_append, ih, hcomma]
      simp

@[simp] theorem breaks_nat (n : Nat) : breaks n.repr = 0 :=
  breaks_eq_zero.mpr (not_mem_toString_nat (by decide) n)

@[simp] theorem breaks_int (i : Int) : breaks i.repr = 0 :=
  breaks_eq_zero.mpr (not_mem_toString_int (by decide) (by decide) i)

@[simp] theorem breaks_quote (s : String) : breaks (quote s) = 0 :=
  breaks_eq_zero.mpr (newline_not_mem_quote s)

@[simp] theorem breaks_float (bits : UInt64) : breaks (Decimal.Binary64.text bits) = 0 :=
  breaks_eq_zero.mpr (newline_not_mem_float bits)

end Text

namespace Kind

/-- The name in a kind that is spelled as it is in a description: any but the text of a string. -/
def identifier? {ν : Type} : Kind ν → Option ν
  | type (.name id) => some id
  | expression (.name id) => some id
  | declaration what => what.id?
  | _ => none

theorem identifier?_map {ν μ : Type} (k : Kind ν) (f : ν → μ) :
    (k.map f).identifier? = k.identifier?.map f := by
  cases k with
  | type shape => cases shape <;> rfl
  | expression shape => cases shape <;> rfl
  | declaration what => cases what <;> rfl
  | _ => rfl

/-- The items of a payload are on one line, but for an identifier. -/
theorem breaks_details (k : Kind String) :
    (k.details.map Text.breaks).sum = k.identifier?.elim 0 Text.breaks := by
  have hmode : ∀ mode : PassingMode, Text.breaks mode.label = 0 := fun mode =>
    Text.breaks_eq_zero.mpr (mode.isWords_label.not_mem rfl)
  have hlinkage : ∀ linkage : Linkage, Text.breaks linkage.label = 0 := fun linkage =>
    Text.breaks_eq_zero.mpr (linkage.isWords_label.not_mem rfl)
  cases k with
  | type shape => cases shape <;> simp [details, TypeShape.details, identifier?]
  | qualifiedType q =>
    obtain ⟨const, inferred⟩ := q
    cases const <;> cases inferred <;> decide
  | literal value =>
    cases value with
    | bool flag => cases flag <;> decide
    | _ => simp [details, Literal.details, identifier?]
  | expression shape =>
    cases shape with
    | keyword word => cases word <;> decide
    | _ => simp [details, Expression.details, identifier?]
  | statement shape => rfl
  | declaration what =>
    cases what with
    | tupleElement id =>
      cases id <;> simp [details, Declaration.details, identifier?, Declaration.id?]
    | _ => simp [details, Declaration.details, identifier?, Declaration.id?, hmode, hlinkage]

/-- **A description has the line breaks of the identifier in it** and no others. -/
theorem breaks_describe (k : Kind String) :
    Text.breaks k.describe = k.identifier?.elim 0 Text.breaks := by
  have hvariant : Text.breaks k.variant = 0 :=
    Text.breaks_eq_zero.mpr (k.isWords_variant.not_mem rfl)
  have hparentheses : Text.breaks "(" = 0 ∧ Text.breaks ")" = 0 := by decide
  have hdetails := k.breaks_details
  rw [describe]
  cases hitems : k.details with
  | nil =>
    rw [hitems] at hdetails
    exact hvariant.trans hdetails
  | cons item rest =>
    rw [hitems, ← Text.breaks_intercalate] at hdetails
    simp [hvariant, hparentheses, hdetails]

end Kind

/-- The identifier of a node as it is spelled, if the node has one. -/
def Context.identifier? (c : Context) (id : NodeId) : Option String :=
  ((c.graph.kind? id).bind Kind.identifier?).map c.names.lookup

/-- How many line breaks there are in the identifier of a node. -/
def Context.identifierBreaks (c : Context) (id : NodeId) : Nat :=
  (c.identifier? id).elim 0 Text.breaks

theorem Context.breaks_describe (c : Context) (id : NodeId) :
    Text.breaks (c.describe id) = c.identifierBreaks id := by
  have hmissing : Text.breaks missingText = 0 := by decide
  rw [describe, identifierBreaks, identifier?]
  cases c.graph.kind? id with
  | none => exact hmissing
  | some kind =>
    show Text.breaks (kind.map c.names.lookup).describe = _
    rw [Kind.breaks_describe, Kind.identifier?_map]
    rfl

/-! ## Items -/

namespace Graph

variable {g : Graph}

/-- How many references a node has. -/
def refCount (g : Graph) (id : NodeId) : Nat := (g.edges id).countP fun e => !e.isOwned

/-- How many nodes and references a tree has. -/
def itemCount (g : Graph) (root : NodeId) : Nat :=
  (g.preorder root).length + ((g.preorder root).map g.refCount).sum

/-- A sum over the entries of a tree in which a reference counts as one. -/
theorem OwnInv.sum_entries (h : OwnInv g) {root : NodeId} (hroot : root ∈ g) {weight : Entry → Nat}
    {extra : NodeId → Nat} (hnode : ∀ id, weight (.node id) = 1 + extra id)
    (href : ∀ owner target, weight (.reference owner target) = 1) :
    ((g.entries root).map weight).sum =
      g.itemCount root + ((g.preorder root).map extra).sum := by
  have hrefs : ∀ (id : NodeId) (edges : List Edge),
      ((edges.filterMap (ownReference? id)).map weight).sum = edges.countP fun e => !e.isOwned := by
    intro id edges
    induction edges with
    | nil => rfl
    | cons e rest ih =>
      cases e with
      | owned child => exact ih
      | ref target =>
        have hentry : ownReference? id (.ref target) = some (.reference id target) := rfl
        rw [List.filterMap_cons_some hentry, List.map_cons, List.sum_cons, href, ih,
          List.countP_cons_of_pos rfl, Nat.add_comm]
  have hown : ∀ ids : List NodeId, ((ids.flatMap g.ownEntries).map weight).sum =
      ids.length + (ids.map g.refCount).sum + (ids.map extra).sum := by
    intro ids
    induction ids with
    | nil => rfl
    | cons id rest ih =>
      simp only [List.flatMap_cons, List.map_append, List.sum_append, ih, ownEntries, List.map_cons,
        List.sum_cons, hnode, hrefs, List.length_cons, refCount]
      omega
  rw [((h.entries_perm root hroot).map weight).sum_nat, hown, itemCount]

end Graph

/-! ## Lines -/

/-- Texts that each end with their one line break are the lines of the text that they make, but for
the empty one behind the last line break. -/
theorem Text.splitOn_lines {lines : List (List Char)} (h : ∀ line ∈ lines, '\n' ∉ line) :
    (lines.flatMap fun line => line ++ ['\n']).splitOn '\n' = lines ++ [[]] := by
  have hjoined : (lines.flatMap fun line => line ++ ['\n']) =
      ['\n'].intercalate (lines ++ [[]]) := by
    clear h
    induction lines with
    | nil => rfl
    | cons line rest ih =>
      cases rest <;> simp_all [List.intercalate]
  rw [hjoined, List.splitOn_intercalate]
  · intro line hline
    rcases List.mem_append.mp hline with hline | hline
    · exact h line hline
    · exact List.mem_singleton.mp hline ▸ List.not_mem_nil
  · simp

namespace Context

open SyntaxGraph.Graph

variable {c : Context}

/-- No identifier in the tree of the root has a line break in it. -/
def Unbroken (c : Context) (root : NodeId) : Prop :=
  ∀ id, c.graph.Above root id → ∀ s ∈ c.identifier? id, '\n' ∉ s.toList

/-- The line of an entry, without the line break at its end. -/
def entryChars (c : Context) (root : NodeId) (e : Entry) : List Char :=
  (c.entryText root e).toList.dropLast

theorem toList_entryText (root : NodeId) (e : Entry) :
    (c.entryText root e).toList = c.entryChars root e ++ ['\n'] := by
  have hlast : ∀ body : String,
      (body ++ "\n").toList = (body ++ "\n").toList.dropLast ++ ['\n'] := by
    intro body
    rw [String.toList_append]
    exact congrArg (· ++ ['\n']) List.dropLast_concat.symm
  cases e <;> exact hlast _

theorem breaks_indent (n : Nat) : Text.breaks (String.ofList (List.replicate n ' ')) = 0 := by
  rw [Text.breaks_eq_zero, String.toList_ofList]
  exact fun hmem => absurd (List.eq_of_mem_replicate hmem) (by decide)

theorem breaks_idText (id : NodeId) : Text.breaks id.text = 0 := by
  have hmark : Text.breaks "#" = 0 := by decide
  rw [NodeId.text, Text.breaks_append, hmark, Nat.zero_add]
  exact Text.breaks_nat id.index

theorem breaks_entryText_node (root id : NodeId) :
    Text.breaks (c.entryText root (.node id)) = 1 + c.identifierBreaks id := by
  have hblank : Text.breaks " " = 0 := by decide
  have hend : Text.breaks "\n" = 1 := by decide
  simp only [entryText, Text.breaks_append, breaks_indent, breaks_idText, breaks_describe, hblank,
    hend]
  omega

theorem breaks_entryText_reference (root owner target : NodeId) :
    Text.breaks (c.entryText root (.reference owner target)) = 1 := by
  have harrow : Text.breaks "-> " = 0 := by decide
  have hend : Text.breaks "\n" = 1 := by decide
  simp only [entryText, Text.breaks_append, breaks_indent, breaks_idText, harrow, hend]

/-- What the lines of the outline of a root are. -/
structure Lined (c : Context) (root : NodeId) : Prop where
  /-- Its line breaks are one for each item and those of the identifiers. -/
  breaks_eq : Text.breaks (c.dump root) =
    c.graph.itemCount root + ((c.graph.preorder root).map c.identifierBreaks).sum
  ends : (c.dump root).toList.getLast? = some '\n'
  /-- There is one line for each item exactly if no identifier has a line break. -/
  one_each_iff : Text.breaks (c.dump root) = c.graph.itemCount root ↔ c.Unbroken root
  /-- Then the lines are the items, in their order. -/
  lines_eq : c.Unbroken root → (c.dump root).toList.splitOn '\n' =
    (c.graph.entries root).map (c.entryChars root) ++ [[]]
  length_entries : (c.graph.entries root).length = c.graph.itemCount root

theorem identifierBreaks_eq_zero {id : NodeId} :
    c.identifierBreaks id = 0 ↔ ∀ s ∈ c.identifier? id, '\n' ∉ s.toList := by
  rw [identifierBreaks]
  cases c.identifier? id with
  | none => simp
  | some s => simp [Text.breaks_eq_zero]

/-- **The lines of an outline are counted** in a context that a program comes to: it has one for
each item, and one more for each line break in an identifier. -/
theorem lines_of_outline (hc : Reachable c) {root : NodeId} (hroot : root ∈ c.graph) :
    c.Lined root := by
  have h := ownInv_reachable hc
  have houtlined := outlined h hroot
  have hbreaks : Text.breaks (c.dump root) =
      c.graph.itemCount root + ((c.graph.preorder root).map c.identifierBreaks).sum := by
    have hsum : ((c.graph.entries root).map fun e => Text.breaks (c.entryText root e)).sum =
        c.graph.itemCount root + ((c.graph.preorder root).map c.identifierBreaks).sum :=
      h.sum_entries hroot (breaks_entryText_node root) (breaks_entryText_reference root)
    rw [houtlined.text, Text.breaks_join, List.map_map, ← hsum]
    rfl
  have hdump : (c.dump root).toList =
      ((c.graph.entries root).map (c.entryChars root)).flatMap fun line => line ++ ['\n'] := by
    rw [houtlined.text, String.toList_join, List.flatMap_map, List.flatMap_map]
    exact List.flatMap_congr fun e _ => toList_entryText root e
  refine ⟨hbreaks, ?ends, ?one_each, ?lines, ?length⟩
  case ends =>
    have hne : c.graph.entries root ≠ [] := by simp [h.entries_eq hroot]
    rw [hdump, ← List.dropLast_concat_getLast hne, List.map_append, List.flatMap_append,
      List.map_singleton, List.flatMap_singleton, ← List.append_assoc, List.getLast?_concat]
  case one_each =>
    have hnone : ((c.graph.preorder root).map c.identifierBreaks).sum = 0 ↔ c.Unbroken root := by
      rw [List.sum_eq_zero_iff_forall_eq_nat, List.forall_mem_map]
      exact forall_congr' fun id =>
        imp_congr (h.mem_preorder hroot) identifierBreaks_eq_zero
    rw [hbreaks, Nat.add_eq_left, hnone]
  case lines =>
    intro hunbroken
    -- every entry has one line break, and that is the one at its end
    have hone : ∀ e ∈ c.graph.entries root, Text.breaks (c.entryText root e) = 1 := by
      intro e he
      cases e with
      | node id =>
        have habove := (houtlined.mem_iff id).mp he
        rw [breaks_entryText_node, identifierBreaks_eq_zero.mpr (hunbroken id habove)]
      | reference owner target => exact breaks_entryText_reference root owner target
    rw [hdump, Text.splitOn_lines]
    intro line hline
    obtain ⟨e, he, rfl⟩ := List.mem_map.mp hline
    have hcount := hone e he
    rw [Text.breaks, toList_entryText, List.count_append, List.count_singleton_self] at hcount
    exact List.count_eq_zero.mp (by omega)
  case length =>
    have hlength : ((c.graph.entries root).map fun _ => 1).sum =
        c.graph.itemCount root + ((c.graph.preorder root).map fun _ => 0).sum :=
      h.sum_entries hroot (fun _ => rfl) fun _ _ => rfl
    simpa using hlength

/-- Four items and no identifier with a line break. -/
theorem lines_of_outline_linkedRecord :
    let c := runAll linkedRecord .fresh
    Reachable c ∧ ⟨0⟩ ∈ c.graph ∧ c.Lined ⟨0⟩ ∧ c.graph.itemCount ⟨0⟩ = 4 ∧ c.Unbroken ⟨0⟩ := by
  intro c
  have hc : Reachable c := leads_runAll linkedRecord (.refl _)
  have hroot : (⟨0⟩ : NodeId) ∈ c.graph := by decide +kernel
  have hcount : c.graph.itemCount ⟨0⟩ = 4 := by decide +kernel
  have hbreaks : Text.breaks (c.dump ⟨0⟩) = c.graph.itemCount ⟨0⟩ := by decide +kernel
  have hlined := lines_of_outline hc hroot
  exact ⟨hc, hroot, hlined, hcount, hlined.one_each_iff.mp hbreaks⟩

end Context

/-- A type that is known by a name of two lines, the second one like that of a node below it. -/
def twoLinedName : List Command := [
  .make (.build (.node (.type (.name (.text "a)\n  #1 type::Name(b"))) [])) .dummy]

/-- An outline can have more lines than items. -/
theorem exists_more_lines_than_items :
    ¬ ∀ c, Reachable c → ∀ root ∈ c.graph, Text.breaks (c.dump root) = c.graph.itemCount root := by
  intro h
  have hc : Reachable (runAll twoLinedName .fresh) := leads_runAll twoLinedName (.refl _)
  have hroot : (⟨0⟩ : NodeId) ∈ (runAll twoLinedName .fresh).graph := by decide +kernel
  have hlines : Text.breaks ((runAll twoLinedName .fresh).dump ⟨0⟩) = 2 := by decide +kernel
  have hitems : (runAll twoLinedName .fresh).graph.itemCount ⟨0⟩ = 1 := by decide +kernel
  have hsame := h _ hc ⟨0⟩ hroot
  omega

/-- The one node is shown as two. -/
example : (runAll twoLinedName .fresh).graph.size = 1
    ∧ (runAll twoLinedName .fresh).dump ⟨0⟩ = "#0 type::Name(a)\n  #1 type::Name(b)\n" := by
  decide +kernel

end SyntaxGraph
