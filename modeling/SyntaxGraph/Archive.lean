import SyntaxGraph.Edge
import SyntaxGraph.Kind.Category
import SyntaxGraph.Name
import SyntaxGraph.Span

/-!
# Stored values

Spans, names, ids, edges and categories can be stored in a file of plain data
and read back. Ids and names are stored as their words, a span as a record of its
two ends, an edge as a record whose one field says what sort of edge it is, and a
category as a word.

A reader accepts somewhat more than a writer produces: the fields of a span in a
list, further fields of a span, and a category as a record with an empty field.
-/

namespace SyntaxGraph

/-- A value of a file of plain data. -/
inductive Datum where
  | null
  | number (value : Int)
  | text (value : String)
  | list (items : List Datum)
  | record (fields : List (String × Datum))
  /-- A truth value or a number that is not whole. -/
  | other
  deriving Inhabited

namespace Datum

/-- A 32-bit word. -/
def word? : Datum → Option UInt32
  | number (.ofNat n) => if n < UInt32.size then some (.ofNat n) else none
  | _ => none

/-- The datum for a word. -/
def ofWord (w : UInt32) : Datum := number w.toNat

/-- The value of a field. -/
def field? (fields : List (String × Datum)) (key : String) : Option Datum :=
  (fields.find? fun f => f.1 == key).map Prod.snd

end Datum

namespace Span

/-- The stored form of a span. -/
def toDatum (s : Span) : Datum :=
  .record [("start", .ofWord s.start), ("end", .ofWord s.stop)]

/-- Reads a stored span. -/
def ofDatum? : Datum → Option Span
  | .record fields => do
    let start ← Datum.field? fields "start"
    let stop ← Datum.field? fields "end"
    return ⟨← start.word?, ← stop.word?⟩
  | .list [start, stop] => do return ⟨← start.word?, ← stop.word?⟩
  | _ => none

end Span

namespace Name

/-- The stored form of a name. -/
def toDatum (n : Name) : Datum := .ofWord n.raw

/-- Reads a stored name. -/
def ofDatum? (d : Datum) : Option Name := d.word?.map Name.mk

end Name

namespace NodeId

/-- The stored form of an id. -/
def toDatum (id : NodeId) : Datum := .number id.index

/-- Reads a stored id. -/
def ofDatum? (d : Datum) : Option NodeId := d.word?.map fun w => ⟨w.toNat⟩

end NodeId

namespace Edge

/-- The stored form of an edge. -/
def toDatum (e : Edge) : Datum := .record [(e.label, e.target.toDatum)]

/-- The edge of a given sort. -/
def ofLabel? (label : String) (id : NodeId) : Option Edge :=
  [owned id, ref id].find? fun e => e.label == label

/-- Reads a stored edge. -/
def ofDatum? : Datum → Option Edge
  | .record [(label, target)] => do ofLabel? label (← NodeId.ofDatum? target)
  | _ => none

end Edge

namespace Category

/-- The word that a category is stored as. -/
def storedWord : Category → String
  | type => "Type"
  | qualifiedType => "QualifiedType"
  | literal => "Ctor"
  | expression => "Expression"
  | statement => "Statement"
  | declaration => "Declaration"

/-- The stored form of a category. -/
def toDatum (c : Category) : Datum := .text c.storedWord

/-- Reads a stored category. -/
def ofDatum? : Datum → Option Category
  | .text word | .record [(word, .null)] => all.find? fun c => c.storedWord == word
  | _ => none

end Category

end SyntaxGraph
