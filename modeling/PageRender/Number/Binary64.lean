import PageRender.Number.Power

/-!
# Finite doubles

The finite numbers of the binary format with 64 bits, as exact integers: a double is
`± mantissa · 2 ^ scale / 2 ^ 1074`, and every operation is its exact result rounded once, to the
nearest double and to the even one of two that are equally near.
-/

namespace PageRender

/-- A mantissa and a scale that the format has: at most 53 bits, and exactly 53 unless the scale is
the smallest. -/
def InFormat (mantissa scale : Nat) : Prop :=
  mantissa < twoPow 53 ∧ scale ≤ 2045 ∧ (scale = 0 ∨ twoPow 52 ≤ mantissa)

instance (mantissa scale : Nat) : Decidable (InFormat mantissa scale) :=
  inferInstanceAs (Decidable (_ ∧ _ ∧ _))

/-- A finite double. Zero has two forms, which differ in sign. -/
structure Binary64 where
  negative : Bool
  mantissa : Nat
  scale : Nat
  inFormat : InFormat mantissa scale
deriving DecidableEq

namespace Binary64

/-- The size of a double in units of `2 ^ -1074`. -/
def magnitude (x : Binary64) : Nat :=
  x.mantissa * twoPow x.scale

/-- Zero, of either sign. -/
def isZero (x : Binary64) : Bool :=
  x.mantissa = 0

/-- The zero without a sign. -/
def zero : Binary64 where
  negative := false
  mantissa := 0
  scale := 0
  inFormat := by decide

/-- The same size with the opposite sign. -/
def neg (x : Binary64) : Binary64 :=
  { x with negative := !x.negative }

/-- Two doubles have the same value: they are equal, or both are zero. -/
def same (x y : Binary64) : Bool :=
  x = y || (x.isZero && y.isZero)

/-- A quotient of natural numbers rounded to the nearest one, a half to the even neighbour. -/
def roundQuotient (num den : Nat) : Nat :=
  let quotient := num / den
  let rest := num % den
  if 2 * rest < den then quotient
  else if den < 2 * rest then quotient + 1
  else quotient + quotient % 2

/-- The double with these parts, if the format has it. A mantissa that rounding has carried to
`2 ^ 53` stands for the next binade. -/
def ofParts? (mantissa scale : Nat) : Option Binary64 :=
  if h : InFormat mantissa scale then some ⟨false, mantissa, scale, h⟩
  else if h : InFormat (mantissa / 2) (scale + 1) then some ⟨false, mantissa / 2, scale + 1, h⟩
  else none

/-- The double nearest to `num / den`, or nothing if that is beyond the largest one. -/
def ofQuotient? (num den : Nat) : Option Binary64 :=
  let scaled := num * twoPow 1074
  let scale := (scaled / den).log2 - 52
  ofParts? (roundQuotient scaled (den * twoPow scale)) scale

/-- The double nearest to a natural number. -/
def ofNat? (n : Nat) : Option Binary64 :=
  ofQuotient? n 1

/-- The product of the sizes, rounded. -/
def mul? (x y : Binary64) : Option Binary64 :=
  ofQuotient? (x.magnitude * y.magnitude) (twoPow 2148)

/-- The quotient of the sizes, rounded. -/
def div? (x y : Binary64) : Option Binary64 :=
  ofQuotient? x.magnitude y.magnitude

/-- Divide by a power of ten: at once by one that the format has, and step by step by `10 ^ 308`
otherwise, ending early at zero. -/
def scaleDown? (x : Binary64) (power : Nat) : Option Binary64 :=
  if power ≤ 308 then do x.div? (← ofNat? (tenPow power))
  else if x.isZero then some x
  else do
    let smaller ← x.div? (← ofNat? (tenPow 308))
    smaller.scaleDown? (power - 308)
termination_by power

/-- Multiply by a power of ten; nothing if the format does not have the power or the result. -/
def scaleUp? (x : Binary64) (power : Nat) : Option Binary64 :=
  if power ≤ 308 then do x.mul? (← ofNat? (tenPow power))
  else if x.isZero then some x
  else none

/-- The double read for `significand · 10 ^ exponent`. The significand, the power of ten and the
result are rounded one after the other, so that the last bit may differ from that of the nearest
double. -/
def ofScientific? (significand : Nat) (exponent : Int) : Option Binary64 := do
  let x ← ofNat? significand
  if 0 ≤ exponent then x.scaleUp? exponent.toNat else x.scaleDown? (-exponent).toNat

end Binary64

end PageRender
