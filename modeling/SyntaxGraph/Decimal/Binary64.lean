import SyntaxGraph.Decimal.Shortest

/-!
# The text of a 64-bit float

A float is given by its bits: a sign, eleven bits of exponent and fifty-two of
fraction. It is written with the fewest digits that read back as the same float
and never with an exponent. Whole numbers have no point, a zero keeps its sign,
and every NaN is written alike.
-/

namespace SyntaxGraph.Decimal.Binary64

/-- The sign bit is set. -/
def isNegative (bits : UInt64) : Bool := bits >>> 63 == 1

/-- The eleven bits of the biased exponent. -/
def biased (bits : UInt64) : Nat := ((bits >>> 52) &&& 0x7FF).toNat

/-- The fifty-two bits of the fraction. -/
def fraction (bits : UInt64) : Nat := (bits &&& 0xFFFFFFFFFFFFF).toNat

/-- The reals that round to a finite float, its sign aside. The gap below a power of two is half as
wide as the one above it; the ends round to the float exactly if its last bit is zero. -/
def interval (bits : UInt64) : Interval :=
  let e := biased bits
  let f := fraction bits
  let m := if e = 0 then f else f + 1 <<< 52
  let gap := if f = 0 ∧ 1 < e then 1 else 2
  let up := max e 1 - 1077
  let down := 1077 - max e 1
  ⟨(4 * m - gap) <<< up, (4 * m) <<< up, (4 * m + 2) <<< up, 1 <<< down, m % 2 == 0⟩

/-- Decimals of this many digits lie closer together than 64-bit floats do. -/
def enoughDigits : Nat := 17

/-- The text of a float, its sign aside. -/
def magnitudeText (bits : UInt64) : String :=
  if biased bits = 0x7FF then "inf"
  else if biased bits = 0 ∧ fraction bits = 0 then "0"
  else (((interval bits).shortest? enoughDigits).map Scaled.positional).getD ""

/-- The text of a float. -/
def text (bits : UInt64) : String :=
  if biased bits = 0x7FF ∧ fraction bits ≠ 0 then "NaN"
  else (if isNegative bits then "-" else "") ++ magnitudeText bits

end SyntaxGraph.Decimal.Binary64
