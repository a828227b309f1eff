/-!
# Names

A name stands for an interned text. It is one 32-bit word: the upper four bits
say which shard of the table holds the text, the lower twenty-eight which slot
of that shard. Two names from one table are equal exactly when their texts are,
so comparing words compares texts.
-/

namespace SyntaxGraph

/-- A word that names a slot in one of the sixteen shards of a table. -/
structure Name where
  raw : UInt32
  deriving DecidableEq, Repr, Hashable

namespace Name

/-- How many shards a table has. -/
def shardCount : Nat := 16

/-- The largest slot that fits beside the number of the shard. -/
def maxSlot : UInt32 := 0x0FFFFFFF

/-- Packs a shard and a slot into one word. -/
def ofParts (shard slot : UInt32) : Name := ⟨(shard <<< 28) ||| slot⟩

/-- The name of the empty text, which every table has in its first slot. -/
def empty : Name := ⟨0⟩

instance : Inhabited Name := ⟨empty⟩

/-- The shard that holds the text. -/
def shard (n : Name) : Nat := (n.raw >>> 28).toNat

/-- The slot of the text in its shard. -/
def slot (n : Name) : Nat := (n.raw &&& maxSlot).toNat

/-- Names are ordered as their words are. -/
def before (m n : Name) : Bool := m.raw < n.raw

/-- Shard and slot, for a reader who debugs a table. -/
def debugText (n : Name) : String :=
  "Name(" ++ toString n.shard ++ ":" ++ toString n.slot ++ ")"

end Name

end SyntaxGraph
