/-!
# Powers

The powers of two and ten of which the formats of numbers are made.
-/

namespace PageRender

/-- A power of two. -/
def twoPow (exponent : Nat) : Nat :=
  Nat.pow 2 exponent

/-- A power of ten. -/
def tenPow (exponent : Nat) : Nat :=
  Nat.pow 10 exponent

/-- How many values a word of 64 bits has. -/
def wordSize : Nat :=
  twoPow 64

end PageRender
