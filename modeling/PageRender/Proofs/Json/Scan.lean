import PageRender.Proofs.Json.Numbers
import PageRender.Proofs.Json.Strings

/-!
# The tokens of a written tree

The compact text of a tree and its pretty one are scanned to the same tokens, since they differ in
white space only: `Json.scan?_compact` and `Json.scan?_pretty`. The tree must be legible, that is,
readable throughout with doubles that read back.

The texts are followed piece by piece. A piece that scans to some tokens does so in front of
everything with which a number in front of it cannot go on, and two pieces are put together where
the second begins so.
-/

namespace PageRender

open List

namespace Json

mutual

/-- Whether a tree is readable throughout, and its doubles read back. -/
def isLegible : Json → Bool
  | .number (.double x) => (Number.double x).readsBack
  | .array items => legibleItems items
  | .object members => legibleMembers members
  | .unreadable => false
  | _ => true

/-- Whether all items are legible. -/
def legibleItems : List Json → Bool
  | [] => true
  | item :: rest => item.isLegible && legibleItems rest

/-- Whether all members are legible. -/
def legibleMembers : List (String × Json) → Bool
  | [] => true
  | (_, item) :: rest => item.isLegible && legibleMembers rest

end

mutual

/-- The tokens of a tree. -/
def tokens : Json → List Token
  | .null => [.null]
  | .bool b => [.bool b]
  | .number n => [n.token]
  | .string s => [.string (some s)]
  | .array items => .openArray :: itemTokens items ++ [.closeArray]
  | .object members => .openObject :: memberTokens members ++ [.closeObject]
  | .unreadable => [.null]

/-- The tokens of items with commas between them. -/
def itemTokens : List Json → List Token
  | [] => []
  | [item] => item.tokens
  | item :: rest => item.tokens ++ .comma :: itemTokens rest

/-- The tokens of members with commas between them. -/
def memberTokens : List (String × Json) → List Token
  | [] => []
  | [(key, item)] => .string (some key) :: .colon :: item.tokens
  | (key, item) :: rest =>
    .string (some key) :: .colon :: item.tokens ++ .comma :: memberTokens rest

end

end Json

namespace Token

variable {c : Char} {cs cs' rest : List Char} {t : Token} {ts ts' : List Token}

/-! ### One token at a time -/

lemma scanOnto?_cons_of_isSpace (hc : isSpace c = true) (before : List Token) :
    scanOnto? before (c :: rest) = scanOnto? before rest := by
  rw [scanOnto?, if_pos hc]

lemma next?_of_isSpace (hc : isSpace c = true) : next? (c :: cs) = none := by
  simp only [isSpace, Bool.or_eq_true, decide_eq_true_eq] at hc
  rcases hc with ((rfl | rfl) | rfl) | rfl <;> rfl

lemma scanOnto?_of_next? (h : next? cs = some (t, rest)) (before : List Token) :
    scanOnto? before cs = scanOnto? (t :: before) rest := by
  cases cs with
  | nil => cases h
  | cons c cs =>
    have hc : ¬isSpace c = true := fun hc => by simp [next?_of_isSpace hc] at h
    rw [scanOnto?, if_neg hc]
    split
    · simp_all
    · simp_all

/-! ### Pieces of a text -/

/-- A piece of a text that is scanned to some tokens, in front of anything with which a number
cannot go on. -/
def Scans (cs : List Char) (ts : List Token) : Prop :=
  ∀ before rest, EndsNumber rest →
    scanOnto? before (cs ++ rest) = scanOnto? (ts.reverse ++ before) rest

namespace Scans

lemma nil : Scans [] [] :=
  fun _ _ _ => rfl

lemma token (h : ∀ rest, EndsNumber rest → next? (cs ++ rest) = some (t, rest)) :
    Scans cs [t] :=
  fun before rest hrest => scanOnto?_of_next? (h rest hrest) before

lemma cons (h : Scans cs ts)
    (hc : ∀ rest, next? (c :: rest) = some (t, rest) := by exact fun _ => rfl) :
    Scans (c :: cs) (t :: ts) := by
  intro before rest hrest
  rw [cons_append, scanOnto?_of_next? (hc _), h _ _ hrest]
  simp

lemma space (h : Scans cs ts) (hc : isSpace c = true := by rfl) : Scans (c :: cs) ts := by
  intro before rest hrest
  rw [cons_append, scanOnto?_cons_of_isSpace hc, h _ _ hrest]

lemma append (h : Scans cs ts) (h' : Scans (c :: cs') ts')
    (hc : EndsNumber [c] := by decide) :
    Scans (cs ++ c :: cs') (ts ++ ts') := by
  intro before rest hrest
  have hends : EndsNumber (c :: cs' ++ rest) := hc
  rw [append_assoc, h _ _ hends, h' _ _ hrest]
  simp

lemma newline (level : Nat) (h : Scans cs ts) : Scans (Json.newline level ++ cs) ts := by
  have hblanks : ∀ n, Scans (replicate n ' ' ++ cs) ts := by
    intro n
    induction n with
    | zero => exact h
    | succ n ih => exact ih.space
  exact (hblanks _).space

lemma quoted (s : String) : Scans (Json.quoted s) [.string (some s)] :=
  token fun rest _ => next?_quoted s rest

lemma scan?_eq (h : Scans cs ts) : scan? cs = some ts := by
  have := h [] [] trivial
  simpa [scan?, scanOnto?] using this

end Scans

end Token

namespace Json

open Token

/-! ### Leaves -/

lemma scans_null : Scans "null".toList [.null] :=
  Scans.token fun _ _ => rfl

lemma scans_boolText (b : Bool) : Scans (boolText b) [.bool b] := by
  cases b <;> exact Scans.token fun _ _ => rfl

lemma readsBack_of_isLegible {n : Number} (h : (Json.number n).isLegible = true) :
    n.readsBack = true := by
  cases n with
  | int n hn => exact Number.readsBack_int n hn
  | double x => exact h

lemma scans_number {n : Number} (h : (Json.number n).isLegible = true) :
    Scans n.text [n.token] :=
  Scans.token fun _ hrest => Number.next?_text_append (readsBack_of_isLegible h) hrest

/-! ### The compact text -/

mutual

lemma scans_compactChars : (j : Json) → j.isLegible = true → Scans j.compactChars j.tokens
  | .null, _ => scans_null
  | .bool b, _ => scans_boolText b
  | .number _, h => scans_number h
  | .string s, _ => Scans.quoted s
  | .array items, h =>
    have hclose : Scans [']'] [.closeArray] := Scans.nil.cons
    ((scans_compactItems items h).append hclose).cons
  | .object members, h =>
    have hclose : Scans ['}'] [.closeObject] := Scans.nil.cons
    ((scans_compactMembers members h).append hclose).cons
  | .unreadable, _ => scans_null

lemma scans_compactItems : (items : List Json) → legibleItems items = true →
    Scans (compactItems items) (itemTokens items)
  | [], _ => Scans.nil
  | [item], h => by
    simp only [legibleItems, Bool.and_true] at h
    exact scans_compactChars item h
  | item :: next :: rest, h => by
    rw [legibleItems, Bool.and_eq_true] at h
    exact (scans_compactChars item h.1).append (scans_compactItems (next :: rest) h.2).cons

lemma scans_compactMembers : (members : List (String × Json)) → legibleMembers members = true →
    Scans (compactMembers members) (memberTokens members)
  | [], _ => Scans.nil
  | [(key, item)], h => by
    simp only [legibleMembers, Bool.and_true] at h
    exact (Scans.quoted key).append (scans_compactChars item h).cons
  | (key, item) :: next :: rest, h => by
    rw [legibleMembers, Bool.and_eq_true] at h
    have hrest := scans_compactMembers (next :: rest) h.2
    simpa [compactMembers, memberTokens] using
      (Scans.quoted key).append ((scans_compactChars item h.1).append hrest.cons).cons

end

/-- The compact text of a tree is scanned to its tokens. -/
theorem scan?_compact {j : Json} (h : j.isLegible = true) :
    scan? j.compact.toList = some j.tokens := by
  simpa [compact] using (scans_compactChars j h).scan?_eq

/-! ### The pretty text -/

mutual

lemma scans_prettyChars (level : Nat) :
    (j : Json) → j.isLegible = true → Scans (j.prettyChars level) j.tokens
  | .null, _ => scans_null
  | .bool b, _ => scans_boolText b
  | .number _, h => scans_number h
  | .string s, _ => Scans.quoted s
  | .array [], _ => Scans.nil.cons.cons
  | .array (item :: rest), h => by
    have hclose : Scans (newline level ++ [']']) [.closeArray] :=
      Scans.newline level Scans.nil.cons
    simpa [prettyChars, tokens, newline] using
      ((scans_prettyItems (level + 1) (item :: rest) h).append hclose).cons
  | .object [], _ => Scans.nil.cons.cons
  | .object (member :: rest), h => by
    have hclose : Scans (newline level ++ ['}']) [.closeObject] :=
      Scans.newline level Scans.nil.cons
    simpa [prettyChars, tokens, newline] using
      ((scans_prettyMembers (level + 1) (member :: rest) h).append hclose).cons
  | .unreadable, _ => scans_null

lemma scans_prettyItems (level : Nat) : (items : List Json) → legibleItems items = true →
    Scans (prettyItems level items) (itemTokens items)
  | [], _ => Scans.nil
  | [item], h => by
    simp only [legibleItems, Bool.and_true] at h
    exact Scans.newline level (scans_prettyChars level item h)
  | item :: next :: rest, h => by
    rw [legibleItems, Bool.and_eq_true] at h
    exact (Scans.newline level (scans_prettyChars level item h.1)).append
      (scans_prettyItems level (next :: rest) h.2).cons

lemma scans_prettyMembers (level : Nat) :
    (members : List (String × Json)) → legibleMembers members = true →
    Scans (prettyMembers level members) (memberTokens members)
  | [], _ => Scans.nil
  | [(key, item)], h => by
    simp only [legibleMembers, Bool.and_true] at h
    simpa [prettyMembers, memberTokens] using
      Scans.newline level ((Scans.quoted key).append (scans_prettyChars level item h).space.cons)
  | (key, item) :: next :: rest, h => by
    rw [legibleMembers, Bool.and_eq_true] at h
    have hrest := scans_prettyMembers level (next :: rest) h.2
    simpa [prettyMembers, memberTokens] using Scans.newline level ((Scans.quoted key).append
      ((scans_prettyChars level item h.1).append hrest.cons).space.cons)

end

/-- The pretty text of a tree is scanned to the same tokens. -/
theorem scan?_pretty {j : Json} (h : j.isLegible = true) :
    scan? j.pretty.toList = some j.tokens := by
  simpa [pretty] using (scans_prettyChars 0 j h).scan?_eq

end Json

end PageRender
