import Mathlib.Tactic.Lemma
import PageRender.Json.Token
import PageRender.Json.Writer

/-!
# Strings that read back

A character is written as itself, as a letter after a backslash, or as the number of its unit. The
reader undoes each of the three, so that a string in quotes is read back whatever it holds:
`Token.next?_quoted`.
-/

namespace PageRender

open List

namespace Token

/-- The piece as which a character is written. -/
def Piece.of (c : Char) : Piece :=
  if c.toNat < 0x20 ∧ c ∉ ['\x08', '\x0c', '\n', '\r', '\t'] then .unit c.toNat else .char c

lemma hexDigit?_hexChar : ∀ n < 16, hexDigit? (Json.hexChar n) = some n := by
  decide

lemma unit?_escape {n : Nat} (hn : n < 0x20) :
    unit? '0' '0' (Json.hexChar (n / 16)) (Json.hexChar (n % 16)) = some n := by
  have hzero : hexDigit? '0' = some 0 := by decide
  have hhigh := hexDigit?_hexChar (n / 16) (by omega)
  have hlow := hexDigit?_hexChar (n % 16) (by omega)
  simp only [unit?, hzero, hhigh, hlow, Option.bind_eq_bind, Option.bind_some]
  congr 1
  omega

lemma pieces?_cons {before : List Piece} {c : Char} {rest : List Char} (hquote : c ≠ '"')
    (hbackslash : c ≠ '\\') (hc : ¬c.toNat < 0x20) :
    pieces? before (c :: rest) = pieces? (.char c :: before) rest := by
  rw [pieces?, if_neg]
  · simp [hc, hbackslash]
  · exact hquote
  · exact fun _ _ _ _ _ h => absurd h hbackslash
  · exact fun _ _ h => absurd h hbackslash

lemma pieces?_escape (before : List Piece) (c : Char) (rest : List Char) :
    pieces? before (Json.escape c ++ rest) = pieces? (.of c :: before) rest := by
  unfold Json.escape
  split
  case h_8 hquote hbackslash hb hf hn hr ht =>
    have hletter : c ∉ ['\x08', '\x0c', '\n', '\r', '\t'] := by
      simpa using ⟨hb, hf, hn, hr, ht⟩
    split
    · next hc => simp [pieces?, unit?_escape hc, Piece.of, hc, hletter]
    · next hc =>
      rw [Piece.of, if_neg fun h => hc h.1]
      exact pieces?_cons hquote hbackslash hc
  all_goals rfl

lemma pieces?_flatMap_escape (before : List Piece) (cs rest : List Char) :
    pieces? before (cs.flatMap Json.escape ++ '"' :: rest) =
      some ((cs.map Piece.of).reverse ++ before, rest) := by
  induction cs generalizing before with
  | nil => simp [pieces?]
  | cons c cs ih => simp [pieces?_escape, ih]

lemma chars?_cons_of (after : List Char) (c : Char) (before : List Piece) :
    chars? after (.of c :: before) = chars? (c :: after) before := by
  unfold Piece.of
  split
  · next hc =>
    have hlow : isLow c.toNat = false := by simp [isLow]; omega
    have hhigh : isHigh c.toNat = false := by simp [isHigh]; omega
    match before with
    | [] => simp [chars?, hlow, hhigh]
    | .char _ :: _ => simp [chars?, hlow, hhigh]
    | .unit _ :: _ => simp [chars?, hlow, hhigh]
  · rfl

lemma chars?_map_of (after cs : List Char) :
    chars? after (cs.map Piece.of) = some (cs.reverse ++ after) := by
  induction cs generalizing after with
  | nil => rfl
  | cons c cs ih => simp [chars?_cons_of, ih]

/-- A string in quotes is read back, whatever follows it. -/
theorem next?_quoted (s : String) (rest : List Char) :
    next? (Json.quoted s ++ rest) = some (.string (some s), rest) := by
  simp [Json.quoted, next?, string?, pieces?_flatMap_escape, ← map_reverse, chars?_map_of]

end Token

end PageRender
