/-!
# The shortest decimal of a rounding interval

A binary fraction stands for every real number that rounds to it. Of the decimals
in that interval the shortest has the fewest digits, and of two equally short
ones it is the nearer to the fraction itself; a tie goes to the larger.

For a given number of digits the candidates are the two neighbours of the
fraction on the decimal grid of that length. All arithmetic is on natural
numbers over one denominator.
-/

namespace SyntaxGraph.Decimal

/-- A positive fraction and the interval of reals that round to it, over one denominator. -/
structure Interval where
  low : Nat
  value : Nat
  high : Nat
  den : Nat
  /-- The two ends belong to the interval. -/
  closed : Bool
  deriving DecidableEq, Repr

/-- The number `digits * 10 ^ exponent`. -/
structure Scaled where
  digits : Nat
  exponent : Int
  deriving DecidableEq, Repr

/-- How many decimal digits a number has. -/
def length (n : Nat) : Nat := (Nat.toDigits 10 n).length

/-- The least `e` for which the fraction is below `10 ^ e`. -/
def magnitude (num den : Nat) : Int :=
  if den ≤ num then length (num / den) else 1 - (length ((den - 1) / num) : Int)

namespace Interval

/-- The point `digits * unit` lies in the interval, all of it stretched by `stretch`. -/
def holds (v : Interval) (stretch unit digits : Nat) : Bool :=
  let point := digits * unit
  if v.closed then v.low * stretch ≤ point && point ≤ v.high * stretch
  else v.low * stretch < point && point < v.high * stretch

/-- The better of the fraction's two neighbours on the grid of multiples of `10 ^ exponent`, if one
of them lies in the interval. -/
def onGrid? (v : Interval) (exponent : Int) : Option Nat :=
  let stretch := Nat.pow 10 (-exponent).toNat
  let unit := v.den * Nat.pow 10 exponent.toNat
  let value := v.value * stretch
  let below := value / unit
  let nearer := if (below + 1) * unit - value ≤ value - below * unit then below + 1 else below
  let farther := if nearer = below then below + 1 else below
  if v.holds stretch unit nearer then some nearer
  else if v.holds stretch unit farther then some farther
  else none

/-- The first grid with a hit, from `count` digits on, among the next `left` grids. -/
def search? (v : Interval) (top : Int) : (left count : Nat) → Option Scaled
  | 0, _ => none
  | left + 1, count =>
    match v.onGrid? (top - count) with
    | some digits => some ⟨digits, top - count⟩
    | none => v.search? top left (count + 1)

/-- The shortest decimal of at most `limit` digits, if one lies in the interval. -/
def shortest? (v : Interval) (limit : Nat) : Option Scaled :=
  v.search? (magnitude v.value v.den) limit 1

end Interval

namespace Scaled

/-- The digits without the zeros at the end, and how many there were. -/
def trim : List Char → List Char × Nat := fun ds =>
  let kept := (ds.reverse.dropWhile (· == '0')).reverse
  (kept, ds.length - kept.length)

/-- The number without an exponent: zeros fill up to the point, and a whole number has none. -/
def positional (d : Scaled) : String :=
  let (ds, zeros) := trim (Nat.toDigits 10 d.digits)
  let e := d.exponent + zeros
  if 0 ≤ e then String.ofList (ds ++ List.replicate e.toNat '0')
  else
    let places := (-e).toNat
    let padded := List.replicate (places + 1 - ds.length) '0' ++ ds
    let whole := padded.length - places
    String.ofList (padded.take whole ++ '.' :: padded.drop whole)

end Scaled

end SyntaxGraph.Decimal
