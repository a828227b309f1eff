import SyntaxGraph.Edge

/-!
# Sets of nodes

The nodes that a walk has met, kept as the bits of one number: the bit of a node
is the one at its index. Two sets with the same members are the same set.
-/

namespace SyntaxGraph

/-- A finite set of node ids. -/
structure NodeSet where
  bits : Nat
  deriving DecidableEq, Repr

namespace NodeSet

/-- The set without members. -/
def empty : NodeSet := ⟨0⟩

instance : EmptyCollection NodeSet := ⟨empty⟩

/-- The node is a member. -/
def contains (s : NodeSet) (id : NodeId) : Bool := s.bits.testBit id.index

instance : Membership NodeId NodeSet := ⟨fun s id => s.contains id = true⟩

instance (id : NodeId) (s : NodeSet) : Decidable (id ∈ s) :=
  inferInstanceAs (Decidable (s.contains id = true))

/-- The set with one more member. -/
def insert (s : NodeSet) (id : NodeId) : NodeSet := ⟨s.bits ||| 1 <<< id.index⟩

/-- How many members there are. -/
def size (s : NodeSet) : Nat :=
  ((List.range (s.bits.log2 + 1)).filter fun i => s.bits.testBit i).length

theorem mem_def {s : NodeSet} {id : NodeId} : id ∈ s ↔ s.contains id = true := Iff.rfl

@[simp] theorem not_mem_empty (id : NodeId) : id ∉ empty := by
  simp [mem_def, contains, empty]

@[simp] theorem contains_insert (s : NodeSet) (a b : NodeId) :
    (s.insert a).contains b = (s.contains b || decide (a = b)) := by
  rcases a with ⟨a⟩
  rcases b with ⟨b⟩
  simp [contains, insert, Nat.testBit_or, Nat.one_shiftLeft, Nat.testBit_two_pow]

@[simp] theorem mem_insert {s : NodeSet} {a b : NodeId} : b ∈ s.insert a ↔ b ∈ s ∨ a = b := by
  simp [mem_def]

/-- A set is known by its members. -/
theorem ext {s t : NodeSet} (h : ∀ id, s.contains id = t.contains id) : s = t := by
  rcases s with ⟨s⟩
  rcases t with ⟨t⟩
  exact congrArg NodeSet.mk (Nat.eq_of_testBit_eq fun i => h ⟨i⟩)

end NodeSet

end SyntaxGraph
