import PageRender.Json.Reader
import PageRender.Proofs.Json.Scan

/-!
# Written trees are read back

Where a value may come, the reader takes the tokens of a tree and has read the tree, whatever is
open around it: `Json.reads_tokens`. Hence both texts of a legible tree are parsed to the tree.
-/

namespace PageRender

open List

namespace Json

/-! ### Runs of the reader -/

variable {r r' r'' : Reader} {t : Token} {ts ts' : List Token}

/-- The reader takes the tokens and gets from one state to the other. -/
def Reads (r : Reader) (ts : List Token) (r' : Reader) : Prop :=
  ts.foldlM Reader.read? r = some r'

namespace Reads

lemma nil : Reads r [] r :=
  rfl

lemma cons (hread : r.read? t = some r') (h : Reads r' ts r'') : Reads r (t :: ts) r'' := by
  rw [Reads, foldlM_cons, hread]
  exact h

lemma append (h : Reads r ts r') (h' : Reads r' ts' r'') : Reads r (ts ++ ts') r'' := by
  rw [Reads, foldlM_append, h]
  exact h'

/-- A run is not changed by a state that takes the first token alike. -/
lemma congr_head {q : Reader} (h : Reads r (t :: ts) r') (hread : q.read? t = r.read? t) :
    Reads q (t :: ts) r' := by
  rw [Reads, foldlM_cons, hread]
  exact h

end Reads

/-! ### The tokens of a tree -/

variable {stack : List Frame}

/-- Members as the reader holds them, with keys that are readable. -/
def keyed (members : List (String × Json)) : List (Key × Json) :=
  members.map fun member => (some member.1, member.2)

lemma ofMembers_reverse_keyed (members : List (String × Json)) :
    ofMembers (keyed members).reverse = .object members := by
  have hkeys : (keyed members).mapM (fun (m : Key × Json) => m.1.map (·, m.2)) =
      some members := by
    induction members with
    | nil => rfl
    | cons member rest ih =>
      simp only [keyed] at ih
      simp [keyed, ih]
  rw [ofMembers, reverse_reverse]
  simp only [hkeys]

/-- Items do not begin as their array ends. -/
lemma exists_itemTokens_eq_cons {item : Json} (h : item.isLegible = true) (rest : List Json) :
    ∃ t ts, itemTokens (item :: rest) = t :: ts ∧ t ≠ .closeArray := by
  have hitem : ∃ t ts, item.tokens = t :: ts ∧ t ≠ .closeArray := by
    cases item with
    | number n =>
      obtain ⟨l, hl, -⟩ := Number.token_eq_number (readsBack_of_isLegible h)
      exact ⟨_, _, rfl, by simp [hl]⟩
    | _ => exact ⟨_, _, rfl, by simp⟩
  obtain ⟨t, ts, htokens, ht⟩ := hitem
  cases rest with
  | nil => exact ⟨t, ts, htokens, ht⟩
  | cons next rest =>
    exact ⟨t, ts ++ .comma :: itemTokens (next :: rest), by simp [itemTokens, htokens], ht⟩

lemma read?_firstItem (ht : t ≠ .closeArray) (stack : List Frame) :
    Reader.read? ⟨stack, .firstItem⟩ t = Reader.read? ⟨.array [] :: stack, .value⟩ t := by
  cases t <;> simp_all [Reader.read?]

/-- Members begin with a key. -/
lemma exists_memberTokens_eq_cons (member : String × Json) (rest : List (String × Json)) :
    ∃ ts, memberTokens (member :: rest) = .string (some member.1) :: ts := by
  cases rest with
  | nil => exact ⟨_, rfl⟩
  | cons next rest => exact ⟨_, rfl⟩

mutual

/-- By recursion on the tree: what is open around it stays on the stack. -/
lemma reads_tokens (stack : List Frame) : (j : Json) → j.isLegible = true →
    Reads ⟨stack, .value⟩ j.tokens ⟨stack, .ended j⟩
  | .null, _ => Reads.nil.cons rfl
  | .bool _, _ => Reads.nil.cons rfl
  | .number n, h => by
    obtain ⟨l, hl, hn⟩ := Number.token_eq_number (readsBack_of_isLegible h)
    exact Reads.nil.cons (by simp [Reader.read?, Reader.readValue?, hl, leaf?, hn])
  | .string _, _ => Reads.nil.cons rfl
  | .array [], _ => (Reads.nil.cons rfl).cons rfl
  | .array (item :: rest), h => by
    have hitems := reads_items stack [] (item :: rest) (by simp) h
    rw [isLegible, legibleItems, Bool.and_eq_true] at h
    obtain ⟨t, ts, htokens, ht⟩ := exists_itemTokens_eq_cons h.1 rest
    rw [htokens] at hitems
    rw [tokens, htokens]
    exact (hitems.congr_head (read?_firstItem ht stack)).cons rfl
  | .object [], _ => (Reads.nil.cons rfl).cons rfl
  | .object (member :: rest), h => by
    have hmembers := reads_members stack [] (member :: rest) (by simp) h
    obtain ⟨ts, htokens⟩ := exists_memberTokens_eq_cons member rest
    rw [htokens] at hmembers
    rw [tokens, htokens]
    exact (hmembers.congr_head rfl).cons rfl

/-- The items that have been read are on the stack, the last first. -/
lemma reads_items (stack : List Frame) (before : List Json) : (items : List Json) →
    items ≠ [] → legibleItems items = true →
    Reads ⟨.array before :: stack, .value⟩ (itemTokens items ++ [.closeArray])
      ⟨stack, .ended (.array (before.reverse ++ items))⟩
  | [item], _, h => by
    rw [legibleItems, Bool.and_eq_true] at h
    exact (reads_tokens _ item h.1).append (Reads.nil.cons (by simp [Reader.read?]))
  | item :: next :: rest, _, h => by
    rw [legibleItems, Bool.and_eq_true] at h
    have hrest := reads_items stack (item :: before) (next :: rest) (by simp) h.2
    simpa [itemTokens] using (reads_tokens _ item h.1).append (hrest.cons rfl)

/-- The members that have been read are kept beside the stack while a key may come. -/
lemma reads_members (stack : List Frame) (before : List (String × Json)) :
    (members : List (String × Json)) → members ≠ [] → legibleMembers members = true →
    Reads ⟨stack, .key (keyed before).reverse⟩ (memberTokens members ++ [.closeObject])
      ⟨stack, .ended (.object (before ++ members))⟩
  | [(key, item)], _, h => by
    rw [legibleMembers, Bool.and_eq_true] at h
    have hclose : Reader.read? ⟨.object (keyed before).reverse (some key) :: stack, .ended item⟩
        .closeObject = some ⟨stack, .ended (.object (before ++ [(key, item)]))⟩ := by
      rw [← ofMembers_reverse_keyed]
      simp [Reader.read?, keyed]
    exact (((reads_tokens _ item h.1).append (Reads.nil.cons hclose)).cons rfl).cons rfl
  | (key, item) :: next :: rest, _, h => by
    rw [legibleMembers, Bool.and_eq_true] at h
    have hrest := reads_members stack (before ++ [(key, item)]) (next :: rest) (by simp) h.2
    have hcomma : Reader.read? ⟨.object (keyed before).reverse (some key) :: stack, .ended item⟩
        .comma = some ⟨stack, .key (keyed (before ++ [(key, item)])).reverse⟩ := by
      simp [Reader.read?, keyed]
    simpa [memberTokens] using
      (((reads_tokens _ item h.1).append (hrest.cons hcomma)).cons rfl).cons rfl

end

lemma ofTokens?_tokens {j : Json} (h : j.isLegible = true) : ofTokens? j.tokens = some j := by
  have hread : j.tokens.foldlM Reader.read? Reader.start = some ⟨[], .ended j⟩ :=
    reads_tokens [] j h
  simp [ofTokens?, hread, Reader.result?]

theorem parse?_compact {j : Json} (h : j.isLegible = true) : parse? j.compact = some j := by
  rw [parse?, scan?_compact h, Option.bind_some, ofTokens?_tokens h]

theorem parse?_pretty {j : Json} (h : j.isLegible = true) : parse? j.pretty = some j := by
  rw [parse?, scan?_pretty h, Option.bind_some, ofTokens?_tokens h]

end Json

end PageRender
