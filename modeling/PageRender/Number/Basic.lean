import PageRender.Number.Shortest

/-!
# Numbers

A number is an integer that fits a signed or an unsigned word of 64 bits, or a finite double. The
two never compare equal, even where their values agree.
-/

namespace PageRender

/-- The integers that are kept as integers: those of a signed or an unsigned word. -/
def InWord (n : Int) : Prop :=
  -(twoPow 63 : Int) ≤ n ∧ n < wordSize

instance (n : Int) : Decidable (InWord n) :=
  inferInstanceAs (Decidable (_ ∧ _))

/-- An integer of at most 64 bits, or a finite double. -/
inductive Number
  | int (value : Int) (inWord : InWord value)
  | double (value : Binary64)
deriving DecidableEq

/-- The decimal digits of a natural number. -/
def digitsOf (n : Nat) : List Char :=
  Nat.toDigits 10 n

/-- A natural number in decimal, as a text. -/
def natText (n : Nat) : String :=
  String.ofList (digitsOf n)

/-- An integer in decimal, with a sign if it is negative. -/
def intText (n : Int) : List Char :=
  if n < 0 then '-' :: digitsOf n.natAbs else digitsOf n.natAbs

namespace Decimal

/-- Where a printed double leaves the positional notation. -/
structure Notation where
  /-- The point stands at most this many digits to the right of the first digit. -/
  pointAtMost : Nat
  /-- At most this many zeros stand between the point and the first digit. -/
  zerosAtMost : Nat

/-- Doubles are positional from `0.00001` up to seventeen digits before the point. -/
def positional : Notation where
  pointAtMost := 16
  zerosAtMost := 4

/-- A decimal is written positionally if its point is near its digits, always with a digit on
either side of the point; otherwise with one digit before the point, no empty fraction, and a
signed exponent. -/
def text (d : Decimal) : List Char :=
  let digits := digitsOf d.digits
  let point : Int := digits.length + d.exponent
  if 0 ≤ d.exponent ∧ point ≤ positional.pointAtMost then
    digits ++ List.replicate d.exponent.toNat '0' ++ ['.', '0']
  else if 0 < point ∧ point ≤ positional.pointAtMost then
    digits.take point.toNat ++ '.' :: digits.drop point.toNat
  else if point ≤ 0 ∧ -point ≤ positional.zerosAtMost then
    '0' :: '.' :: List.replicate (-point).toNat '0' ++ digits
  else
    let fraction := digits.drop 1
    let exponent := point - 1
    digits.take 1 ++ (if fraction.isEmpty then [] else '.' :: fraction) ++
      'e' :: (if exponent < 0 then '-' else '+') :: digitsOf exponent.natAbs

end Decimal

/-- The shortest text that stands for a double, with a sign if it is negative. -/
def Binary64.text (x : Binary64) : List Char :=
  let digits := if x.isZero then ['0', '.', '0'] else x.shortest.text
  if x.negative then '-' :: digits else digits

namespace Number

/-- The text of a number. A double always shows a point or an exponent. -/
def text : Number → List Char
  | .int n _ => intText n
  | .double x => x.text

/-- Two numbers have the same value and kind. -/
def same : Number → Number → Bool
  | .int m _, .int n _ => m = n
  | .double x, .double y => x.same y
  | _, _ => false

/-- The integer that a number is, if it fits a signed word. -/
def int64? : Number → Option Int
  | .int n _ => if n < twoPow 63 then some n else none
  | .double _ => none

/-- The natural number that a number is. -/
def nat? : Number → Option Nat
  | .int n _ => if 0 ≤ n then some n.toNat else none
  | .double _ => none

/-- An integer as a number, if it fits a word. -/
def ofInt? (n : Int) : Option Number :=
  if h : InWord n then some (.int n h) else none

end Number

end PageRender
