/-!
# Source ranges

Every node remembers which bytes of its source file it came from. A span is
metadata: nothing that compares, resolves or types a node looks at it.

Offsets are 32-bit words. A range given in larger numbers either fits or is
refused, the start before the end.
-/

namespace SyntaxGraph

/-- The bytes from `start` up to, and not including, `stop`. -/
structure Span where
  start : UInt32
  stop : UInt32
  deriving DecidableEq, Repr

/-- Which end of a range does not fit into 32 bits, and what it was. -/
inductive SpanError where
  | startTooLarge (offset : Nat)
  | stopTooLarge (offset : Nat)
  deriving DecidableEq, Repr

namespace SpanError

/-- The digits of a number in base sixteen, with capital letters. -/
def hexadecimal (n : Nat) : String :=
  String.ofList ((Nat.toDigits 16 n).map Char.toUpper)

/-- The offset that was refused. -/
def offset : SpanError → Nat
  | startTooLarge n => n
  | stopTooLarge n => n

/-- The end of the range that was refused. -/
def side : SpanError → String
  | startTooLarge _ => "start"
  | stopTooLarge _ => "end"

/-- What is reported of a refused range: the offset in both bases. -/
def message (e : SpanError) : String :=
  "span " ++ e.side ++ " " ++ toString e.offset ++ " (0x" ++ hexadecimal e.offset ++
    ") exceeds u32::MAX"

end SpanError

namespace Span

/-- The span of a node that comes from no source text. -/
def dummy : Span := ⟨0, 0⟩

instance : Inhabited Span := ⟨dummy⟩

/-- The empty span at an offset. -/
def point (offset : UInt32) : Span := ⟨offset, offset⟩

/-- A range of any two offsets, refused if an end needs more than 32 bits. -/
def ofRange (start stop : Nat) : Except SpanError Span :=
  if UInt32.size ≤ start then .error (.startTooLarge start)
  else if UInt32.size ≤ stop then .error (.stopTooLarge stop)
  else .ok ⟨.ofNat start, .ofNat stop⟩

/-- How many bytes a span covers. A span that ends before it starts has no length. -/
def length? (s : Span) : Option Nat :=
  if s.start ≤ s.stop then some (s.stop.toNat - s.start.toNat) else none

/-- Both ends are the same offset. -/
def isEmpty (s : Span) : Bool := s.start == s.stop

/-- The offset lies in the half-open range. -/
def contains (s : Span) (offset : UInt32) : Bool := s.start ≤ offset && offset < s.stop

/-- From the earlier start to the later stop. -/
def merge (s t : Span) : Span :=
  ⟨if t.start < s.start then t.start else s.start, if s.stop < t.stop then t.stop else s.stop⟩

/-- The two offsets with two dots between them. -/
def text (s : Span) : String := toString s.start.toNat ++ ".." ++ toString s.stop.toNat

end Span

end SyntaxGraph
