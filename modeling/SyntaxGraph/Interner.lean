import SyntaxGraph.Name

/-!
# The table of texts

Identifiers and string literals are kept once, in a table, and nodes hold their
`Name`s. The table only grows: a text keeps the name it was first given, and a
name that was ever issued keeps its text.

The table is cut into sixteen shards by a hash of the first eight bytes, so the
name of a text depends on the texts of its own shard alone.
-/

namespace SyntaxGraph

/-- The texts of one shard, kept both ways: slot by slot in the order in which they were first
interned, and each text with its slot. -/
structure Shard where
  texts : Array String
  slots : List (String × Nat)
  deriving DecidableEq, Repr

namespace Shard

/-- A shard without texts. -/
def empty : Shard := ⟨#[], []⟩

/-- The slot of a text, if the shard holds it. -/
def slotOf? (shard : Shard) (s : String) : Option Nat := shard.slots.lookup s

/-- The shard with a text in the next slot. -/
def push (shard : Shard) (s : String) : Shard :=
  ⟨shard.texts.push s, (s, shard.texts.size) :: shard.slots⟩

end Shard

/-- The table of texts, one shard for each value of the hash. -/
structure Interner where
  shards : Vector Shard Name.shardCount
  /-- How many texts there are. They are counted when they are interned, not when one asks. -/
  size : Nat
  deriving DecidableEq, Repr

/-- A shard has as many texts as a slot number can tell apart. -/
inductive InternError where
  | shardOverflow (shard count : Nat)
  deriving DecidableEq, Repr

/-- What is reported when a shard is full. -/
def InternError.message : InternError → String
  | .shardOverflow shard count =>
    "interner shard " ++ toString shard ++ " exceeded capacity: " ++ toString count ++
      " strings, max is " ++ toString Name.maxSlot.toNat

namespace Interner

/-- The hash of a text: its first eight bytes as the digits of a number to the base 31, modulo
`2 ^ 32`. -/
def hash (s : String) : UInt32 :=
  (s.toUTF8.toList.take 8).foldl (fun h byte => h * 31 + byte.toUInt32) 0

/-- The shard that holds a text. -/
def shardOf (s : String) : Fin Name.shardCount :=
  ⟨(hash s).toNat % Name.shardCount, Nat.mod_lt _ (by decide)⟩

/-- What is printed for a name that was never issued. -/
def unknownText : String := "<unknown name>"

/-- The text behind a name, if the name was issued. -/
def text? (t : Interner) (n : Name) : Option String :=
  if h : n.shard < Name.shardCount then t.shards[n.shard].texts[n.slot]? else none

/-- The text behind a name, or a marker for a name that was never issued. -/
def lookup (t : Interner) (n : Name) : String := (t.text? n).getD unknownText

/-- The name of a slot in the shard of a text. -/
def nameAt (s : String) (slot : Nat) : Name :=
  .ofParts (.ofNat (shardOf s)) (.ofNat slot)

/-- The name of a text, if the table holds it. -/
def name? (t : Interner) (s : String) : Option Name :=
  (t.shards[shardOf s].slotOf? s).map (nameAt s)

/-- The table with a text appended to its shard. -/
def append (t : Interner) (s : String) : Interner :=
  ⟨t.shards.set (shardOf s) (t.shards[shardOf s].push s), t.size + 1⟩

/-- The name of a text. A text that is new to the table takes the next slot of its shard, unless
the shard is full. -/
def intern (t : Interner) (s : String) : Except InternError (Name × Interner) :=
  match t.name? s with
  | some name => .ok (name, t)
  | none =>
    let count := t.shards[shardOf s].texts.size
    if Name.maxSlot.toNat < count then .error (.shardOverflow (shardOf s) count)
    else .ok (nameAt s count, t.append s)

/-- The table after a text was asked for, which is the table as it was if there is no room. -/
def hold (t : Interner) (s : String) : Interner :=
  match t.intern s with
  | .ok (_, t) => t
  | .error _ => t

/-- A table that holds the empty text, put into its place by hand. -/
def bare : Interner :=
  ⟨(Vector.replicate Name.shardCount .empty).set 0 (Shard.empty.push ""), 1⟩

/-- The keywords, which every table holds from the start. -/
def keywords : List String := ["self", "$$", "$@"]

/-- A table that holds the empty text and the keywords and nothing else. -/
def fresh : Interner := keywords.foldl hold bare

instance : Inhabited Interner := ⟨fresh⟩

/-- The table holds nothing beyond the empty text. -/
def isEmpty (t : Interner) : Bool := t.size ≤ 1

end Interner

end SyntaxGraph
