import Mathlib.Data.List.Infix
import PageRender.Text.Pieces

/-!
# What replacing one text by another leaves

A text is read from the left as characters and occurrences of the text that is searched for. Where
the first character of the latter does not come again in it, occurrences do not overlap, and they
can be counted and replaced one by one. Replacing only some of them, `Replaces`, comes to the same
as replacing all of them exactly if these are all, or if a text is replaced by itself.
-/

namespace PageRender

open List

variable {needle replacement cs out block : List Char} {c : Char}

/-! ### Replacing from the left -/

lemma replaceFrom_eq (needle replacement : List Char) (skip : Nat) (cs : List Char) :
    replaceFrom needle replacement skip cs = replaceAll needle replacement (cs.drop skip) := by
  induction skip generalizing cs with
  | zero => rfl
  | succ skip ih =>
    cases cs with
    | nil => rfl
    | cons c cs => exact ih cs

@[simp] lemma replaceAll_nil (needle replacement : List Char) :
    replaceAll needle replacement [] = [] := rfl

lemma replaceAll_cons (h : ¬needle <+: c :: cs) :
    replaceAll needle replacement (c :: cs) = c :: replaceAll needle replacement cs := by
  rw [replaceAll, replaceFrom, if_neg]
  · rfl
  · rintro ⟨-, hstart⟩
    have hprefix : needle <+: c :: cs := isPrefixOf_iff_prefix.mp hstart
    exact h hprefix

lemma replaceAll_append (hne : needle ≠ []) (replacement cs : List Char) :
    replaceAll needle replacement (needle ++ cs) =
      replacement ++ replaceAll needle replacement cs := by
  obtain ⟨first, rest, rfl⟩ := exists_cons_of_ne_nil hne
  have hstart : (first :: rest).isPrefixOf (first :: (rest ++ cs)) = true :=
    isPrefixOf_iff_prefix.mpr (prefix_append (first :: rest) cs)
  rw [cons_append, replaceAll, replaceFrom, if_pos ⟨hne, hstart⟩, replaceFrom_eq, length_cons,
    Nat.add_sub_cancel, drop_left]

/-- A text is empty, or it begins with an occurrence, or with a character at which none begins. -/
lemma occurrence_induction (hne : needle ≠ []) {P : List Char → Prop} (nil : P [])
    (occurrence : ∀ cs, P cs → P (needle ++ cs))
    (char : ∀ c cs, ¬needle <+: c :: cs → P cs → P (c :: cs)) (cs : List Char) : P cs := by
  match cs with
  | [] => exact nil
  | c :: cs =>
    by_cases h : needle <+: c :: cs
    · obtain ⟨rest, hrest⟩ := h
      rw [← hrest]
      exact occurrence rest (occurrence_induction hne nil occurrence char rest)
    · exact char c cs h (occurrence_induction hne nil occurrence char cs)
termination_by cs.length
decreasing_by
  · have hlength := congrArg length hrest
    have hpos := length_pos_iff.mpr hne
    rw [length_append] at hlength
    omega
  · simp

/-! ### Counting occurrences -/

/-- The number of places of a text at which another one begins. -/
def occurrences (needle cs : List Char) : Nat :=
  cs.tails.countP needle.isPrefixOf

lemma occurrences_nil (hne : needle ≠ []) : occurrences needle [] = 0 := by
  simp [occurrences, hne]

lemma occurrences_cons (needle : List Char) (c : Char) (cs : List Char) :
    occurrences needle (c :: cs) =
      occurrences needle cs + if needle <+: c :: cs then 1 else 0 := by
  simp [occurrences, countP_cons, isPrefixOf_iff_prefix]

lemma occurrences_cons_of_not (h : ¬needle <+: c :: cs) :
    occurrences needle (c :: cs) = occurrences needle cs := by
  rw [occurrences_cons, if_neg h, Nat.add_zero]

section

variable {first : Char} {rest : List Char} (hfirst : first ∉ rest)

/-- No occurrence begins where the first character does not stand. -/
lemma not_prefix_of_ne (h : c ≠ first) : ¬first :: rest <+: c :: cs := by
  rw [cons_prefix_cons]
  exact fun hstart => h hstart.1.symm

lemma occurrences_append_of_not_mem (h : first ∉ block) (cs : List Char) :
    occurrences (first :: rest) (block ++ cs) = occurrences (first :: rest) cs := by
  induction block with
  | nil => rfl
  | cons c block ih =>
    obtain ⟨hc, hblock⟩ := not_or.mp (mem_cons.not.mp h)
    rw [cons_append, occurrences_cons_of_not (not_prefix_of_ne (Ne.symm hc)), ih hblock]

include hfirst

lemma occurrences_needle_append (cs : List Char) :
    occurrences (first :: rest) (first :: rest ++ cs) = occurrences (first :: rest) cs + 1 := by
  have hstart : first :: rest <+: first :: (rest ++ cs) := prefix_append (first :: rest) cs
  rw [cons_append, occurrences_cons, if_pos hstart, occurrences_append_of_not_mem hfirst]

end

/-! ### Replacing some occurrences -/

/-- So many occurrences of a text have been replaced, and nothing else has. -/
inductive Replaces (needle replacement : List Char) : Nat → List Char → List Char → Prop
  | nil : Replaces needle replacement 0 [] []
  | char {n : Nat} {c : Char} {cs out : List Char} (h : Replaces needle replacement n cs out) :
    Replaces needle replacement n (c :: cs) (c :: out)
  | occurrence {n : Nat} {cs out : List Char} (h : Replaces needle replacement n cs out) :
    Replaces needle replacement (n + 1) (needle ++ cs) (replacement ++ out)

namespace Replaces

variable {first : Char} {rest : List Char} {n : Nat}

lemma append_left (h : Replaces needle replacement n cs out) (block : List Char) :
    Replaces needle replacement n (block ++ cs) (block ++ out) := by
  induction block with
  | nil => exact h
  | cons c block ih => exact ih.char

lemma length_eq (h : Replaces needle replacement n cs out) :
    out.length + n * needle.length = cs.length + n * replacement.length := by
  induction h with
  | nil => simp
  | char h ih =>
    simp only [length_cons]
    omega
  | occurrence h ih =>
    simp only [length_append, Nat.succ_mul]
    omega

lemma eq_of_self (h : Replaces needle needle n cs out) : out = cs := by
  induction h with
  | nil => rfl
  | char h ih => rw [ih]
  | occurrence h ih => rw [ih]

/-- What has no first character in it stays. -/
lemma of_append (h : Replaces (first :: rest) replacement n (block ++ cs) out)
    (hblock : first ∉ block) :
    ∃ out', out = block ++ out' ∧ Replaces (first :: rest) replacement n cs out' := by
  induction block generalizing out with
  | nil => exact ⟨out, rfl, h⟩
  | cons c block ih =>
    obtain ⟨hc, hblock⟩ := not_or.mp (mem_cons.not.mp hblock)
    generalize htext : c :: block ++ cs = text at h
    cases h with
    | nil => cases htext
    | char h =>
      cases htext
      obtain ⟨out', rfl, hout⟩ := ih h hblock
      exact ⟨out', rfl, hout⟩
    | occurrence h =>
      rw [cons_append, cons_append] at htext
      exact absurd (cons.inj htext).1.symm hc

section

variable (hfirst : first ∉ rest)

include hfirst

lemma le_occurrences (h : Replaces (first :: rest) replacement n cs out) :
    n ≤ occurrences (first :: rest) cs := by
  induction h with
  | nil => exact Nat.zero_le _
  | char h ih =>
    rw [occurrences_cons]
    omega
  | occurrence h ih =>
    rw [occurrences_needle_append hfirst]
    omega

/-- Replacing as many occurrences as there are is replacing all of them. -/
lemma eq_replaceAll (h : Replaces (first :: rest) replacement n cs out)
    (hn : n = occurrences (first :: rest) cs) :
    out = replaceAll (first :: rest) replacement cs := by
  induction h with
  | nil => rfl
  | @char n c cs out h ih =>
    have hle := h.le_occurrences hfirst
    have hstart : ¬first :: rest <+: c :: cs := by
      intro hstart
      rw [occurrences_cons, if_pos hstart] at hn
      omega
    rw [occurrences_cons_of_not hstart] at hn
    rw [replaceAll_cons hstart, ih hn]
  | occurrence h ih =>
    rw [occurrences_needle_append hfirst] at hn
    rw [replaceAll_append (cons_ne_nil first rest), ih (Nat.succ.inj hn)]

lemma replaceAll_occurrences (replacement cs : List Char) :
    Replaces (first :: rest) replacement (occurrences (first :: rest) cs) cs
      (replaceAll (first :: rest) replacement cs) := by
  induction cs using occurrence_induction (cons_ne_nil first rest) with
  | nil => exact .nil
  | occurrence cs ih =>
    rw [replaceAll_append (cons_ne_nil first rest), occurrences_needle_append hfirst]
    exact ih.occurrence
  | char c cs hstart ih =>
    rw [replaceAll_cons hstart, occurrences_cons_of_not hstart]
    exact ih.char

/-- An occurrence that has not been replaced shows, unless it would have been replaced by itself. -/
lemma eq_needle_or_of_eq (hlength : replacement.length = (first :: rest).length)
    (h : Replaces (first :: rest) replacement n cs out)
    (hout : out = replaceAll (first :: rest) replacement cs) :
    replacement = first :: rest ∨ n = occurrences (first :: rest) cs := by
  induction h with
  | nil => exact Or.inr (occurrences_nil (cons_ne_nil first rest)).symm
  | @char n c cs out h ih =>
    by_cases hstart : first :: rest <+: c :: cs
    · obtain ⟨tail, htail⟩ := hstart
      obtain ⟨rfl, hcs⟩ := cons.inj htail
      change rest ++ tail = cs at hcs
      subst hcs
      obtain ⟨out', rfl, -⟩ := h.of_append hfirst
      rw [← cons_append, ← cons_append, replaceAll_append (cons_ne_nil first rest)] at hout
      exact Or.inl (append_inj_left hout hlength.symm).symm
    · rw [replaceAll_cons hstart] at hout
      rw [occurrences_cons_of_not hstart]
      exact ih (cons.inj hout).2
  | occurrence h ih =>
    rw [replaceAll_append (cons_ne_nil first rest)] at hout
    rw [occurrences_needle_append hfirst]
    exact (ih (append_cancel_left hout)).imp_right (congrArg (· + 1))

/-- Replacing some occurrences is replacing all of them exactly if these are all, or if a text is
replaced by itself. -/
theorem eq_replaceAll_iff (h : Replaces (first :: rest) replacement n cs out) :
    out = replaceAll (first :: rest) replacement cs ↔
      replacement = first :: rest ∨ n = occurrences (first :: rest) cs := by
  have hall := replaceAll_occurrences hfirst replacement cs
  constructor
  · intro hout
    by_cases hlength : replacement.length = (first :: rest).length
    · exact h.eq_needle_or_of_eq hfirst hlength hout
    · -- a text that is longer or shorter shows in the length how often it has been put in
      right
      have hsome := h.length_eq
      have hevery := hall.length_eq
      rw [← hout] at hevery
      have hle := h.le_occurrences hfirst
      obtain ⟨more, hmore⟩ := Nat.exists_eq_add_of_le hle
      rw [hmore, Nat.add_mul, Nat.add_mul] at hevery
      have hzero : more * (first :: rest).length = more * replacement.length := by omega
      have hnone : more = 0 := by
        by_contra hpos
        exact hlength (Nat.eq_of_mul_eq_mul_left (Nat.pos_of_ne_zero hpos) hzero).symm
      omega
  · rintro (rfl | hn)
    · rw [h.eq_of_self, hall.eq_of_self]
    · exact h.eq_replaceAll hfirst hn

end

end Replaces

end PageRender
