import PageRender.Number.Binary64

/-!
# The fewest digits that read back

The decimal written for a double. A decimal stands for a double if it lies among the reals that
round to it, the ends included if the mantissa is even. Of the decimals that do, the one with the
fewest digits is taken, of two with equally many the nearer, and the even one of two equally near.

The search walks through the grids `10 ^ p` from coarse to fine and tests, on each, the two
neighbours of the double: if any point of a grid stands for the double, so does one of them.
-/

namespace PageRender

/-- The number `digits · 10 ^ exponent`. -/
structure Decimal where
  digits : Nat
  exponent : Int
deriving DecidableEq, Repr

namespace Binary64

/-- The reals that round to a double, in units of `2 ^ -1076`. -/
structure Span where
  low : Nat
  middle : Nat
  high : Nat
  closed : Bool

/-- The span of a double: half the distance to its neighbour on either side. Below a power of two
the neighbour is twice as near. -/
def span (x : Binary64) : Span :=
  let unit := twoPow x.scale
  let below := if x.mantissa = twoPow 52 ∧ 0 < x.scale then unit else 2 * unit
  { low := 4 * x.magnitude - below
    middle := 4 * x.magnitude
    high := 4 * x.magnitude + 2 * unit
    closed := x.mantissa % 2 = 0 }

/-- Whether `point`, in the units of the bounds, lies between them. -/
def Span.holds (s : Span) (factor point : Nat) : Bool :=
  if s.closed then s.low * factor ≤ point && point ≤ s.high * factor
  else s.low * factor < point && point < s.high * factor

/-- The point of the grid `10 ^ power` that stands for the double, if one does. -/
def Span.onGrid? (s : Span) (power : Int) : Option Nat :=
  let factor := tenPow (-power).toNat
  let unit := tenPow power.toNat * twoPow 1076
  let lower := s.middle * factor / unit
  match s.holds factor (lower * unit), s.holds factor ((lower + 1) * unit) with
  | false, false => none
  | true, false => some lower
  | false, true => some (lower + 1)
  | true, true =>
    let twice := 2 * (s.middle * factor)
    let between := (2 * lower + 1) * unit
    if twice < between then some lower
    else if between < twice then some (lower + 1)
    else some (lower + lower % 2)

/-- Search the grids from `10 ^ (k - 345)` on downwards. -/
def Span.search (s : Span) : Nat → Decimal
  | 0 => ⟨s.middle, -1076⟩
  | k + 1 =>
    match s.onGrid? ((k : Int) - 344) with
    | some digits => ⟨digits, (k : Int) - 344⟩
    | none => s.search k

/-- The shortest decimal of a nonzero double. It has no zero at its end, since such a point would
have been met on a coarser grid. -/
def shortest (x : Binary64) : Decimal :=
  x.span.search 654

end Binary64

end PageRender
