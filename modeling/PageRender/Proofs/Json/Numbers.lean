import Mathlib.Data.List.TakeWhile
import Mathlib.Tactic.Lemma
import PageRender.Json.Token

/-!
# Numbers that read back

A number reads back if the text written for it is scanned to a literal that denotes it. Every
integer does: `Number.readsBack_int`. Of a double the shortest digits are written, and they are read
with an arithmetic that may miss the last bit, so that whether a double reads back is tested on its
digits.

What is scanned from a number alone is scanned from it in front of any text that cannot continue
it: `Number.next?_text_append`.
-/

namespace PageRender

open List

/-- Whether the text of a number is scanned to a literal that denotes the number. -/
def Number.readsBack (n : Number) : Bool :=
  match Token.next? n.text with
  | some (.number literal, []) => literal.number? = some n
  | _ => false

/-- The token that the text of a number begins with. -/
def Number.token (n : Number) : Token :=
  ((Token.next? n.text).map Prod.fst).getD .null

namespace Token

/-! ### What cannot continue a number -/

/-- A text with which no number before it goes on. -/
def EndsNumber : List Char → Prop
  | [] => True
  | c :: _ => c.isDigit = false ∧ c ≠ '.' ∧ c ≠ 'e' ∧ c ≠ 'E'

instance : (rest : List Char) → Decidable (EndsNumber rest)
  | [] => inferInstanceAs (Decidable True)
  | c :: _ => inferInstanceAs (Decidable (c.isDigit = false ∧ c ≠ '.' ∧ c ≠ 'e' ∧ c ≠ 'E'))

variable {cs rest : List Char} {negative : Bool} {l : Literal}

lemma digits_append (h : EndsNumber rest) (cs : List Char) :
    digits (cs ++ rest) = ((digits cs).1, (digits cs).2 ++ rest) := by
  induction cs with
  | nil =>
    cases rest with
    | nil => rfl
    | cons c rest => simp [digits, h.1]
  | cons c cs ih =>
    by_cases hc : c.isDigit
    · simpa [digits, hc] using ih
    · simp [digits, hc]

lemma fraction?_append (h : EndsNumber rest) {ds : List Nat} {after : List Char}
    (hcs : fraction? cs = some (ds, after)) :
    fraction? (cs ++ rest) = some (ds, after ++ rest) := by
  unfold fraction? at hcs
  split at hcs
  · next cs =>
    simp only [cons_append, fraction?, digits_append h]
    grind
  · next hpoint =>
    obtain ⟨rfl, rfl⟩ : [] = ds ∧ cs = after := by simpa using hcs
    cases cs with
    | cons c cs =>
      have hc : c ≠ '.' := fun hc => hpoint cs (hc ▸ rfl)
      simp [fraction?, hc]
    | nil =>
      cases rest with
      | nil => rfl
      | cons c rest => simp [fraction?, h.2.1]

lemma exponentSign_append (hcs : cs ≠ []) :
    exponentSign (cs ++ rest) = ((exponentSign cs).1, (exponentSign cs).2 ++ rest) := by
  obtain ⟨c, cs, rfl⟩ := exists_cons_of_ne_nil hcs
  by_cases hplus : c = '+'
  · simp [exponentSign, hplus]
  · by_cases hminus : c = '-' <;> simp [exponentSign, hplus, hminus]

lemma exponentDigits?_append (h : EndsNumber rest) {e : Option ExponentPart} {after : List Char}
    (hcs : exponentDigits? cs = some (e, after)) :
    exponentDigits? (cs ++ rest) = some (e, after ++ rest) := by
  have hne : cs ≠ [] := by
    rintro rfl
    simp [exponentDigits?, exponentSign, digits] at hcs
  simp only [exponentDigits?, exponentSign_append hne, digits_append h] at hcs ⊢
  grind

lemma exponent?_append (h : EndsNumber rest) {e : Option ExponentPart} {after : List Char}
    (hcs : exponent? cs = some (e, after)) :
    exponent? (cs ++ rest) = some (e, after ++ rest) := by
  unfold exponent? at hcs
  split at hcs
  · exact exponentDigits?_append h hcs
  · exact exponentDigits?_append h hcs
  · next he hE =>
    obtain ⟨rfl, rfl⟩ : none = e ∧ cs = after := by simpa using hcs
    cases cs with
    | cons c cs =>
      have hc : c ≠ 'e' ∧ c ≠ 'E' := ⟨fun hc => he cs (hc ▸ rfl), fun hc => hE cs (hc ▸ rfl)⟩
      simp [exponent?, hc.1, hc.2]
    | nil =>
      cases rest with
      | nil => rfl
      | cons c rest => simp [exponent?, h.2.2.1, h.2.2.2]

lemma number?_append (h : EndsNumber rest) {after : List Char}
    (hcs : number? negative cs = some (l, after)) :
    number? negative (cs ++ rest) = some (l, after ++ rest) := by
  simp only [number?] at hcs
  split at hcs
  · simp at hcs
  · next hwhole =>
    simp only [Option.bind_eq_some_iff, Option.map_eq_some_iff, Prod.exists] at hcs
    obtain ⟨fraction, cs₁, hfraction, exponent, cs₂, hexponent, heq⟩ := hcs
    obtain ⟨rfl, rfl⟩ := Prod.mk.inj heq
    rw [number?]
    simp only [digits_append h, if_neg hwhole, fraction?_append h hfraction, Option.bind_some,
      exponent?_append h hexponent, Option.map_some]

/-! ### The token of a number -/

lemma next?_cons_of_isDigit {c : Char} (hc : c.isDigit = true) (cs : List Char) :
    next? (c :: cs) = (number? false (c :: cs)).map fun (l, rest) => (.number l, rest) := by
  unfold next?
  split <;> simp_all

lemma isDigit_of_number? {c : Char} {after : List Char}
    (h : number? negative (c :: cs) = some (l, after)) : c.isDigit = true := by
  by_contra hc
  simp [number?, digits, hc] at h

lemma next?_eq_number_iff {after : List Char} : next? cs = some (.number l, after) ↔
    (∃ cs', cs = '-' :: cs' ∧ number? true cs' = some (l, after)) ∨
      number? false cs = some (l, after) := by
  constructor
  · intro h
    unfold next? at h
    split at h
    case h_12 cs => exact .inl ⟨cs, rfl, by simpa using h⟩
    case h_13 => exact .inr (by simpa using h)
    all_goals simp at h
  · rintro (⟨cs, rfl, h⟩ | h)
    · simp [next?, h]
    · cases cs with
      | nil => simp [number?, digits] at h
      | cons c cs => simp [next?_cons_of_isDigit (isDigit_of_number? h), h]

lemma next?_append (h : EndsNumber rest) {after : List Char}
    (hcs : next? cs = some (.number l, after)) :
    next? (cs ++ rest) = some (.number l, after ++ rest) := by
  rw [next?_eq_number_iff] at hcs ⊢
  rcases hcs with ⟨cs, rfl, hcs⟩ | hcs
  · exact .inl ⟨cs ++ rest, rfl, number?_append h hcs⟩
  · exact .inr (number?_append h hcs)

end Token

/-! ### Integers -/

section Integers

open Token

lemma isDigit_digitsOf (n : Nat) : ∀ c ∈ digitsOf n, c.isDigit = true :=
  fun _ hc => Nat.isDigit_of_mem_toDigits (by decide) (by decide) hc

lemma digitsOf_ne_nil (n : Nat) : digitsOf n ≠ [] :=
  Nat.toDigits_ne_nil

lemma digits_digitsOf (n : Nat) : digits (digitsOf n) = ((digitsOf n).map digit, []) := by
  rw [digits, takeWhile_eq_self_iff.2 (isDigit_digitsOf n),
    dropWhile_eq_nil_iff.2 (isDigit_digitsOf n)]

lemma digit_digitChar : ∀ n < 10, digit (Nat.digitChar n) = n := by
  decide

/-- Only zero is written with a zero in front. -/
lemma eq_zero_of_head?_digitsOf {n : Nat} (h : ((digitsOf n).map digit).head? = some 0) :
    n = 0 := by
  induction n using Nat.strongRecOn with
  | _ n ih =>
    by_cases hn : n < 10
    · simpa [digitsOf, Nat.toDigits_of_lt_base hn, digit_digitChar n hn] using h
    · have hdigits : digitsOf n = digitsOf (n / 10) ++ [Nat.digitChar (n % 10)] :=
        Nat.toDigits_of_base_le (by decide) (Nat.not_lt.1 hn)
      obtain ⟨c, cs, hcs⟩ := exists_cons_of_ne_nil (digitsOf_ne_nil (n / 10))
      have := ih (n / 10) (by omega) (by simpa [hdigits, hcs] using h)
      omega

lemma number?_digitsOf (negative : Bool) (n : Nat) : number? negative (digitsOf n) =
    some (⟨negative, (digitsOf n).map digit, [], none⟩, []) := by
  have hwhole : (((digitsOf n).map digit).isEmpty || (((digitsOf n).map digit).head? = some 0 &&
      ((digitsOf n).map digit).length ≠ 1)) = false := by
    by_cases hhead : ((digitsOf n).map digit).head? = some 0
    · rw [eq_zero_of_head?_digitsOf hhead]
      rfl
    · rw [decide_eq_false hhead]
      simpa using digitsOf_ne_nil n
  simp only [number?, digits_digitsOf, hwhole]
  rfl

lemma natOf_digitsOf (n : Nat) : Literal.natOf ((digitsOf n).map digit) = n := by
  simpa [Literal.natOf, foldl_map, digit, Nat.ofDigitChars, digitsOf] using
    Nat.ofDigitChars_ten_toDigits (n := n)

/-- Digits that end below the size of a word are all kept. -/
lemma accumulate_of_lt {significand : Nat} {ds : List Nat}
    (h : ds.foldl (fun n d => 10 * n + d) significand < wordSize) :
    Literal.accumulate significand ds = (ds.foldl (fun n d => 10 * n + d) significand, []) := by
  have hle : ∀ (ds : List Nat) (n : Nat), n ≤ ds.foldl (fun n d => 10 * n + d) n := by
    intro ds
    induction ds with
    | nil => simp
    | cons d ds ih => exact fun n => Nat.le_trans (by omega) (ih (10 * n + d))
  induction ds generalizing significand with
  | nil => rfl
  | cons d ds ih =>
    have hd : 10 * significand + d < wordSize := Nat.lt_of_le_of_lt (hle ds _) h
    simp [Literal.accumulate, hd, ih h]

lemma int?_digitsOf {negative : Bool} {n : Nat} (hn : n < wordSize)
    (hnegative : negative = true → n ≠ 0) :
    Literal.int? ⟨negative, (digitsOf n).map digit, [], none⟩ =
      some (if negative then -(n : Int) else n) := by
  have hacc : Literal.accumulate 0 ((digitsOf n).map digit) = (n, []) := by
    have hsize : Literal.natOf ((digitsOf n).map digit) < wordSize := by
      rwa [natOf_digitsOf]
    exact (accumulate_of_lt hsize).trans (congrArg (·, []) (natOf_digitsOf n))
  have hminus : ¬(negative = true ∧ n = 0) := fun h => hnegative h.1 h.2
  simp [Literal.int?, hacc, Literal.isInteger, hminus]

theorem Number.readsBack_int (n : Int) (h : InWord n) : (Number.int n h).readsBack = true := by
  have hsize : n.natAbs < wordSize := by
    have hlow : (twoPow 63 : Int) < wordSize := by decide
    have := h.1
    have := h.2
    omega
  have hnext : Token.next? (intText n) =
      some (.number ⟨decide (n < 0), (digitsOf n.natAbs).map digit, [], none⟩, []) := by
    rw [next?_eq_number_iff]
    by_cases hn : n < 0
    · exact .inl ⟨digitsOf n.natAbs, by simp [intText, hn],
        by simpa [hn] using number?_digitsOf true n.natAbs⟩
    · exact .inr (by simpa [intText, hn] using number?_digitsOf false n.natAbs)
  have hint : Literal.int? ⟨decide (n < 0), (digitsOf n.natAbs).map digit, [], none⟩ = some n := by
    rw [int?_digitsOf hsize (by simp only [decide_eq_true_eq]; omega)]
    simp only [decide_eq_true_eq, Option.some.injEq]
    split <;> omega
  simp [readsBack, text, hnext, Literal.number?, hint, ofInt?, h]

end Integers

/-! ### Numbers in front of a text -/

variable {n : Number}

lemma Number.token_eq_number (hn : n.readsBack = true) :
    ∃ l, n.token = .number l ∧ l.number? = some n := by
  simp only [readsBack] at hn
  split at hn
  · next l hnext => exact ⟨l, by simp [token, hnext], by simpa using hn⟩
  · simp at hn

theorem Number.next?_text_append (hn : n.readsBack = true) {rest : List Char}
    (hrest : Token.EndsNumber rest) :
    Token.next? (n.text ++ rest) = some (n.token, rest) := by
  simp only [readsBack] at hn
  split at hn
  · next l hnext => simp [token, hnext, Token.next?_append hrest hnext]
  · simp at hn

end PageRender
