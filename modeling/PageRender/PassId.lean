import PageRender.Json.Decode
import PageRender.Text.Pieces

/-!
# Pass identifiers

A pass is known by a number of 128 bits, written as five groups of hexadecimal digits. Identifiers
are ordered as their numbers are.
-/

namespace PageRender

/-- The identifier of a pass. -/
structure PassId where
  bits : BitVec 128
deriving DecidableEq

namespace PassId

/-- The identifier whose bytes are given, the highest first. -/
def ofBytes (bytes : List Nat) : PassId :=
  ⟨BitVec.ofNat 128 (bytes.foldl (fun n byte => 256 * n + byte) 0)⟩

/-- Hexadecimal digits of a fixed number, the highest first. -/
def hexDigits : Nat → Nat → List Char
  | 0, _ => []
  | count + 1, n => hexDigits count (n / 16) ++ [Json.hexChar (n % 16)]

/-- The groups of digits: how many there are in each. -/
def groups : List Nat := [8, 4, 4, 4, 12]

/-- Cut digits into groups with hyphens between them. -/
def hyphenate : List Nat → List Char → List Char
  | [], _ => []
  | [count], digits => digits.take count
  | count :: rest, digits => digits.take count ++ '-' :: hyphenate rest (digits.drop count)

/-- The groups of digits, with hyphens between them. -/
def text (i : PassId) : String :=
  String.ofList (hyphenate groups (hexDigits 32 i.bits.toNat))

/-- The name of a pass. -/
def display (i : PassId) : String :=
  "pass_" ++ i.text

/-- Drop the hyphens between groups of digits; nothing if one is not in its place. -/
def dropHyphens? : List Nat → List Char → Option (List Char)
  | [], digits => if digits.isEmpty then some [] else none
  | [count], digits => if digits.length = count then some digits else none
  | count :: rest, digits =>
    match digits.drop count with
    | '-' :: others => (dropHyphens? rest others).map (digits.take count ++ ·)
    | _ => none

/-- Drop the beginning of a resource name, written in small or capital letters. -/
def afterScheme? (cs : List Char) : Option (List Char) :=
  if (cs.take 9).map Char.toLower = "urn:uuid:".toList then some (cs.drop 9) else none

/-- The digits of an identifier that is written bare, in groups, in groups within braces, or in
groups as the name of a resource. -/
def bare? (cs : List Char) : Option (List Char) :=
  match cs.length with
  | 32 => some cs
  | 36 => dropHyphens? groups cs
  | 38 => ((after? ['{'] cs).bind (before? ['}'])).bind (dropHyphens? groups)
  | 45 => (afterScheme? cs).bind (dropHyphens? groups)
  | _ => none

/-- Read an identifier. -/
def ofText? (text : String) : Option PassId := do
  let digits ← bare? text.toList
  let values ← digits.mapM Token.hexDigit?
  some ⟨BitVec.ofNat 128 (values.foldl (fun n digit => 16 * n + digit) 0)⟩

/-- Decode an identifier. -/
def decode : Decoder PassId := fun depth j => (Decode.string depth j).bind ofText?

/-- The order of identifiers. -/
def order (i j : PassId) : Ordering :=
  compare i.bits.toNat j.bits.toNat

end PassId

end PageRender
