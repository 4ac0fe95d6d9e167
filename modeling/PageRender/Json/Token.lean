import PageRender.Number.Literal

/-!
# Tokens of a JSON text

A JSON text is a list of tokens with white space around them. `Token.scan?` finds the tokens: each
is the longest one that the rest of the text begins with, and the text is refused where it begins
with none.
-/

namespace PageRender

/-- A token of a JSON text. A string that holds half a surrogate pair has no value. -/
inductive Token
  | openArray
  | closeArray
  | openObject
  | closeObject
  | comma
  | colon
  | null
  | bool (value : Bool)
  | number (literal : Literal)
  | string (value : Option String)
deriving DecidableEq

namespace Token

/-! ### White space and digits -/

/-- The white space of the format, which is narrower than the blanks of Unicode. -/
def isSpace (c : Char) : Bool :=
  c = ' ' || c = '\t' || c = '\n' || c = '\r'

/-- The value of a decimal digit. -/
def digit (c : Char) : Nat :=
  c.toNat - '0'.toNat

/-- The digits that a text begins with, and the rest. -/
def digits (cs : List Char) : List Nat × List Char :=
  ((cs.takeWhile Char.isDigit).map digit, cs.dropWhile Char.isDigit)

theorem length_digits (cs : List Char) : (digits cs).2.length ≤ cs.length :=
  (List.dropWhile_suffix Char.isDigit).length_le

/-! ### Numbers -/

/-- A fraction, if the text begins with a point: at least one digit must follow. -/
def fraction? : List Char → Option (List Nat × List Char)
  | '.' :: cs =>
    let (ds, rest) := digits cs
    if ds.isEmpty then none else some (ds, rest)
  | cs => some ([], cs)

/-- The sign of an exponent, and the rest. -/
def exponentSign : List Char → Bool × List Char
  | '+' :: cs => (false, cs)
  | '-' :: cs => (true, cs)
  | cs => (false, cs)

/-- The digits of an exponent: at least one must follow. -/
def exponentDigits? (cs : List Char) : Option (Option ExponentPart × List Char) :=
  let (negative, cs) := exponentSign cs
  let (ds, rest) := digits cs
  if ds.isEmpty then none else some (some ⟨negative, ds⟩, rest)

/-- An exponent, if the text begins with its letter. -/
def exponent? : List Char → Option (Option ExponentPart × List Char)
  | 'e' :: cs => exponentDigits? cs
  | 'E' :: cs => exponentDigits? cs
  | cs => some (none, cs)

/-- A number without its sign: digits with no needless zero in front, a fraction, an exponent. -/
def number? (negative : Bool) (cs : List Char) : Option (Literal × List Char) :=
  let whole := (digits cs).1
  if whole.isEmpty || (whole.head? = some 0 && whole.length ≠ 1) then none
  else
    (fraction? (digits cs).2).bind fun (fraction, cs) =>
      (exponent? cs).map fun (exponent, cs) => (⟨negative, whole, fraction, exponent⟩, cs)

/-! ### Strings -/

/-- A piece of a string as it is written: a character, or a unit of UTF-16 by its number. -/
inductive Piece
  | char (c : Char)
  | unit (n : Nat)

/-- The value of a hexadecimal digit. -/
def hexDigit? (c : Char) : Option Nat :=
  if c.isDigit then some (c.toNat - '0'.toNat)
  else if 'a' ≤ c ∧ c ≤ 'f' then some (c.toNat - 'a'.toNat + 10)
  else if 'A' ≤ c ∧ c ≤ 'F' then some (c.toNat - 'A'.toNat + 10)
  else none

/-- The unit that four hexadecimal digits denote. -/
def unit? (a b c d : Char) : Option Nat := do
  let a ← hexDigit? a
  let b ← hexDigit? b
  let c ← hexDigit? c
  let d ← hexDigit? d
  some (((a * 16 + b) * 16 + c) * 16 + d)

/-- The character that a letter after a backslash denotes. -/
def escaped? : Char → Option Char
  | '"' => some '"'
  | '\\' => some '\\'
  | '/' => some '/'
  | 'b' => some '\x08'
  | 'f' => some '\x0c'
  | 'n' => some '\n'
  | 'r' => some '\r'
  | 't' => some '\t'
  | _ => none

/-- The pieces of a string up to its closing quote, put in front of those read before, the last
first. Control characters are refused. -/
def pieces? (before : List Piece) : List Char → Option (List Piece × List Char)
  | [] => none
  | '"' :: rest => some (before, rest)
  | '\\' :: 'u' :: a :: b :: c :: d :: rest => do pieces? (.unit (← unit? a b c d) :: before) rest
  | '\\' :: e :: rest => do pieces? (.char (← escaped? e) :: before) rest
  | c :: rest => if c.toNat < 0x20 ∨ c = '\\' then none else pieces? (.char c :: before) rest

/-- A unit that begins a surrogate pair. -/
def isHigh (n : Nat) : Bool :=
  0xD800 ≤ n && n < 0xDC00

/-- A unit that ends a surrogate pair. -/
def isLow (n : Nat) : Bool :=
  0xDC00 ≤ n && n < 0xE000

/-- The character of a surrogate pair. -/
def pairChar (high low : Nat) : Char :=
  Char.ofNat (0x10000 + (high - 0xD800) * 0x400 + (low - 0xDC00))

/-- The characters of the pieces, given last first, put in front of `after`; nothing if a surrogate
stands alone. -/
def chars? (after : List Char) : List Piece → Option (List Char)
  | [] => some after
  | .char c :: before => chars? (c :: after) before
  | .unit low :: .unit high :: before =>
    if isLow low then
      if isHigh high then chars? (pairChar high low :: after) before else none
    else if isHigh low then none
    else chars? (Char.ofNat low :: after) (.unit high :: before)
  | .unit n :: before =>
    if isLow n || isHigh n then none else chars? (Char.ofNat n :: after) before

/-- A string after its opening quote. -/
def string? (cs : List Char) : Option (Option String × List Char) :=
  (pieces? [] cs).map fun (pieces, rest) => ((chars? [] pieces).map String.ofList, rest)

/-! ### Tokens -/

/-- The token that a text begins with, and the rest. -/
def next? : List Char → Option (Token × List Char)
  | [] => none
  | '[' :: cs => some (.openArray, cs)
  | ']' :: cs => some (.closeArray, cs)
  | '{' :: cs => some (.openObject, cs)
  | '}' :: cs => some (.closeObject, cs)
  | ',' :: cs => some (.comma, cs)
  | ':' :: cs => some (.colon, cs)
  | 'n' :: 'u' :: 'l' :: 'l' :: cs => some (.null, cs)
  | 't' :: 'r' :: 'u' :: 'e' :: cs => some (.bool true, cs)
  | 'f' :: 'a' :: 'l' :: 's' :: 'e' :: cs => some (.bool false, cs)
  | '"' :: cs => (string? cs).map fun (value, rest) => (.string value, rest)
  | '-' :: cs => (number? true cs).map fun (literal, rest) => (.number literal, rest)
  | cs => (number? false cs).map fun (literal, rest) => (.number literal, rest)

theorem length_fraction? {cs rest : List Char} {ds : List Nat}
    (h : fraction? cs = some (ds, rest)) : rest.length ≤ cs.length := by
  unfold fraction? at h
  split at h
  · next cs =>
    have := length_digits cs
    simp only at h
    split at h <;> simp_all
    omega
  · simp_all

theorem length_exponentDigits? {cs rest : List Char} {e : Option ExponentPart}
    (h : exponentDigits? cs = some (e, rest)) : rest.length ≤ cs.length := by
  have hsign : (exponentSign cs).2.length ≤ cs.length := by
    unfold exponentSign
    split <;> simp
  have := length_digits (exponentSign cs).2
  simp only [exponentDigits?] at h
  split at h <;> simp_all
  omega

theorem length_exponent? {cs rest : List Char} {e : Option ExponentPart}
    (h : exponent? cs = some (e, rest)) : rest.length ≤ cs.length := by
  unfold exponent? at h
  split at h
  · have := length_exponentDigits? h
    simp; omega
  · have := length_exponentDigits? h
    simp; omega
  · simp_all

theorem length_number? {negative : Bool} {cs rest : List Char} {l : Literal}
    (h : number? negative cs = some (l, rest)) : rest.length < cs.length := by
  simp only [number?] at h
  split at h
  · simp at h
  · next hwhole =>
    simp only [Option.bind_eq_some_iff, Option.map_eq_some_iff, Prod.exists, Prod.mk.injEq] at h
    obtain ⟨fraction, cs₁, hfraction, exponent, cs₂, hexponent, -, rfl⟩ := h
    have h₀ : (digits cs).2.length < cs.length := by
      cases cs with
      | nil => simp [digits] at hwhole
      | cons c cs =>
        by_cases hc : c.isDigit
        · have := length_digits cs
          simpa [digits, hc, Nat.lt_succ_iff] using this
        · simp [digits, hc] at hwhole
    have h₁ := length_fraction? hfraction
    have h₂ := length_exponent? hexponent
    omega

theorem length_pieces? {before pieces : List Piece} {cs rest : List Char}
    (h : pieces? before cs = some (pieces, rest)) : rest.length < cs.length := by
  fun_induction pieces? before cs <;> simp_all [Option.bind_eq_some_iff]
  all_goals grind

theorem length_next? {cs rest : List Char} {t : Token} (h : next? cs = some (t, rest)) :
    rest.length < cs.length := by
  have hnumber : ∀ {negative cs rest l}, number? negative cs = some (l, rest) →
      rest.length < cs.length := length_number?
  have hstring : ∀ {cs value rest}, string? cs = some (value, rest) →
      rest.length < cs.length := by
    intro cs value rest h
    simp only [string?, Option.map_eq_some_iff, Prod.exists] at h
    obtain ⟨pieces, rest', h, heq⟩ := h
    simp only [Prod.mk.injEq] at heq
    exact heq.2 ▸ length_pieces? h
  unfold next? at h
  split at h <;> simp only [Option.map_eq_some_iff, Prod.exists, Prod.mk.injEq,
    Option.some.injEq, reduceCtorEq] at h <;> grind

/-- The tokens of a text, put in front of those read before, the last first. -/
def scanOnto? (before : List Token) (cs : List Char) : Option (List Token) :=
  match cs with
  | [] => some before.reverse
  | c :: rest =>
    if isSpace c then scanOnto? before rest
    else
      match h : next? (c :: rest) with
      | none => none
      | some (token, after) =>
        have := length_next? h
        scanOnto? (token :: before) after
termination_by cs.length
decreasing_by
  · exact Nat.lt_succ_self _
  · exact this

/-- The tokens of a text; nothing if some part of it is no token. -/
def scan? (cs : List Char) : Option (List Token) :=
  scanOnto? [] cs

end Token

end PageRender
