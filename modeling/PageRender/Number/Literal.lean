import PageRender.Number.Basic

/-!
# Number literals

What stands for a number in a text: a sign, digits, and possibly a fraction and an exponent; and
the number that it denotes.

An integer literal denotes an integer as long as it fits a word. Every other literal denotes a
double, found from the digits that fit an unsigned word: a digit that would exceed the word is
dropped, and so are the digits after it, those before the point still counting for the exponent.
-/

namespace PageRender

/-- An exponent: its sign and its digits. -/
structure ExponentPart where
  negative : Bool
  digits : List Nat
deriving DecidableEq

/-- A number as it is written. The digits of an absent fraction are empty. -/
structure Literal where
  negative : Bool
  whole : List Nat
  fraction : List Nat
  exponent : Option ExponentPart
deriving DecidableEq

namespace Literal

/-- Append digits to a significand as long as it fits an unsigned word; the digits left over. -/
def accumulate (significand : Nat) : List Nat → Nat × List Nat
  | [] => (significand, [])
  | d :: ds =>
    if 10 * significand + d < wordSize then accumulate (10 * significand + d) ds
    else (significand, d :: ds)

/-- The natural number that digits denote. -/
def natOf (digits : List Nat) : Nat :=
  digits.foldl (fun n d => 10 * n + d) 0

/-- The exponent that is written, zero if there is none. -/
def writtenExponent (l : Literal) : Int :=
  match l.exponent with
  | none => 0
  | some e => if e.negative then -(natOf e.digits : Int) else natOf e.digits

/-- A literal without fraction and exponent. -/
def isInteger (l : Literal) : Bool :=
  l.fraction.isEmpty && l.exponent.isNone

/-- The double that a literal denotes; nothing if it is too large. -/
def double? (l : Literal) : Option Binary64 := do
  let (whole, beyond) := accumulate 0 l.whole
  let (significand, dropped) := accumulate whole l.fraction
  let used := l.fraction.length - dropped.length
  let x ← Binary64.ofScientific? significand (l.writtenExponent + beyond.length - used)
  pure (if l.negative then x.neg else x)

/-- The integer that a literal denotes, if it has neither fraction nor exponent and its size fits an
unsigned word. Minus zero is no integer. -/
def int? (l : Literal) : Option Int :=
  match accumulate 0 l.whole with
  | (n, []) =>
    if l.isInteger ∧ ¬(l.negative ∧ n = 0) then some (if l.negative then -(n : Int) else n)
    else none
  | _ => none

/-- The number that a literal denotes; nothing if it is too large. -/
def number? (l : Literal) : Option Number :=
  l.int?.bind Number.ofInt? <|> l.double?.map .double

end Literal

end PageRender
