import Mathlib.Data.List.DropRight
import PageRender.Text.Blank
import PageRender.Text.Pieces

/-!
# What trimming and cutting leave

A text is the blanks that trimming drops, around what trimming leaves, and it is its pieces with a
separator between them. What is left has no blank at its ends, and no piece has a separator, so that
both are known by these properties.
-/

namespace PageRender

open List

variable {separator : Char} {cs core piece before after start rest ending : List Char}

/-- All characters of a text are blank. -/
def AllBlank (cs : List Char) : Prop :=
  ∀ c ∈ cs, isBlank c = true

lemma allBlank_nil : AllBlank [] := by
  simp [AllBlank]

lemma allBlank_append : AllBlank (before ++ after) ↔ AllBlank before ∧ AllBlank after := by
  simp only [AllBlank, forall_mem_append]

lemma AllBlank.not_mem (h : AllBlank cs) {c : Char} (hc : isBlank c = false) : c ∉ cs := by
  intro hmem
  rw [h c hmem] at hc
  cases hc

/-! ### Trimming -/

lemma trimBlankRight_eq (cs : List Char) : trimBlankRight cs = cs.rdropWhile isBlank := rfl

lemma trimBlankRight_append (h : AllBlank after) :
    trimBlankRight (core ++ after) = trimBlankRight core := by
  simp only [trimBlankRight, reverse_append]
  rw [dropWhile_append_of_pos]
  intro c hc
  exact h c (mem_reverse.mp hc)

/-- Blanks around a text do not change what trimming leaves of it. -/
lemma trimBlank_append (hbefore : AllBlank before) (hafter : AllBlank after) :
    trimBlank (before ++ core ++ after) = trimBlank core := by
  rw [trimBlank, append_assoc, dropWhile_append_of_pos hbefore, dropWhile_append]
  split
  · next hcore =>
    have hdrop : core.dropWhile isBlank = [] := isEmpty_iff.mp hcore
    have hnone : after.dropWhile isBlank = [] := dropWhile_eq_nil_iff.mpr hafter
    rw [trimBlank, hdrop, hnone]
  · rw [trimBlankRight_append hafter, trimBlank]

/-- A text that has no blank at its ends stays as it is. -/
lemma trimBlank_eq_self (hhead : ∀ c ∈ cs.head?, isBlank c = false)
    (hlast : ∀ c ∈ cs.getLast?, isBlank c = false) : trimBlank cs = cs := by
  have hleft : cs.dropWhile isBlank = cs := by
    cases cs with
    | nil => rfl
    | cons c cs => simp [hhead c rfl]
  rw [trimBlank, hleft, trimBlankRight_eq, rdropWhile_eq_self_iff]
  intro hne
  simp [hlast _ (getLast?_eq_some_getLast hne)]

/-- Trimming leaves a text without blanks, whichever blanks surround it. -/
lemma trimBlank_surrounded (hbefore : AllBlank before) (hafter : AllBlank after)
    (hcore : ∀ c ∈ core, isBlank c = false) : trimBlank (before ++ core ++ after) = core := by
  rw [trimBlank_append hbefore hafter]
  apply trimBlank_eq_self
  · intro c hc
    exact hcore c (mem_of_mem_head? hc)
  · intro c hc
    exact hcore c (mem_of_getLast? hc)

/-- Trimming drops blanks only. -/
lemma exists_trimBlank (cs : List Char) : ∃ before after, AllBlank before ∧ AllBlank after ∧
    cs = before ++ trimBlank cs ++ after := by
  refine ⟨cs.takeWhile isBlank, (cs.dropWhile isBlank).rtakeWhile isBlank, ?_, ?_, ?_⟩
  · intro c hc
    exact mem_takeWhile_imp hc
  · intro c hc
    exact mem_rtakeWhile_imp hc
  · rw [trimBlank, trimBlankRight_eq, append_assoc, rdropWhile_append_rtakeWhile,
      takeWhile_append_dropWhile]

/-- What trimming leaves is known by its ends, if they are not blank. -/
lemma trimBlank_eq_iff (hhead : ∀ c ∈ core.head?, isBlank c = false)
    (hlast : ∀ c ∈ core.getLast?, isBlank c = false) : trimBlank cs = core ↔
      ∃ before after, AllBlank before ∧ AllBlank after ∧ cs = before ++ core ++ after := by
  constructor
  · rintro rfl
    exact exists_trimBlank cs
  · rintro ⟨before, after, hbefore, hafter, rfl⟩
    rw [trimBlank_append hbefore hafter, trimBlank_eq_self hhead hlast]

lemma trimBlank_eq_nil_iff : trimBlank cs = [] ↔ AllBlank cs := by
  constructor
  · intro h
    obtain ⟨before, after, hbefore, hafter, hcs⟩ := exists_trimBlank cs
    rw [hcs, h, append_nil, allBlank_append]
    exact ⟨hbefore, hafter⟩
  · intro h
    rw [trimBlank, dropWhile_eq_nil_iff.mpr h]
    rfl

/-! ### Starts and ends -/

lemma after?_eq_some_iff : after? start cs = some rest ↔ cs = start ++ rest := by
  rw [after?]
  split
  · next h =>
    obtain ⟨tail, rfl⟩ := isPrefixOf_iff_prefix.mp h
    simp [eq_comm]
  · next h =>
    refine iff_of_false (by simp) ?_
    rintro rfl
    apply h
    exact isPrefixOf_iff_prefix.mpr (prefix_append start rest)

lemma before?_eq_some_iff : before? ending cs = some rest ↔ cs = rest ++ ending := by
  rw [before?]
  split
  · next h =>
    obtain ⟨front, rfl⟩ := isSuffixOf_iff_suffix.mp h
    simp [eq_comm]
  · next h =>
    refine iff_of_false (by simp) ?_
    rintro rfl
    exact h (isSuffixOf_iff_suffix.mpr (suffix_append rest ending))

/-! ### Pieces -/

lemma piecesAt_ne_nil (separator : Char) (cs : List Char) : piecesAt separator cs ≠ [] := by
  cases cs with
  | nil => simp [piecesAt]
  | cons c cs =>
    rw [piecesAt]
    split
    · simp
    · split <;> simp

lemma piecesAt_of_not_mem (h : separator ∉ cs) : piecesAt separator cs = [cs] := by
  induction cs with
  | nil => rfl
  | cons c cs ih =>
    rw [mem_cons, not_or] at h
    simp [piecesAt, ih h.2, Ne.symm h.1]

lemma piecesAt_append_cons (h : separator ∉ before) :
    piecesAt separator (before ++ separator :: rest) = before :: piecesAt separator rest := by
  induction before with
  | nil =>
    obtain ⟨piece, pieces, hpieces⟩ := exists_cons_of_ne_nil (piecesAt_ne_nil separator rest)
    simp [piecesAt, hpieces]
  | cons c before ih =>
    rw [mem_cons, not_or] at h
    simp [piecesAt, ih h.2, Ne.symm h.1]

/-- The first piece ends at the first separator. -/
lemma piecesAt_eq_cons_iff {pieces : List (List Char)} :
    piecesAt separator cs = piece :: pieces ↔ separator ∉ piece ∧
      (cs = piece ∧ pieces = [] ∨
        ∃ rest, cs = piece ++ separator :: rest ∧ piecesAt separator rest = pieces) := by
  constructor
  · intro h
    by_cases hmem : separator ∈ cs
    · obtain ⟨before, rest, rfl, hbefore⟩ := eq_append_cons_of_mem hmem
      rw [piecesAt_append_cons hbefore] at h
      cases h
      exact ⟨hbefore, Or.inr ⟨rest, rfl, rfl⟩⟩
    · rw [piecesAt_of_not_mem hmem] at h
      cases h
      exact ⟨hmem, Or.inl ⟨rfl, rfl⟩⟩
  · rintro ⟨hpiece, ⟨rfl, rfl⟩ | ⟨rest, rfl, rfl⟩⟩
    · exact piecesAt_of_not_mem hpiece
    · exact piecesAt_append_cons hpiece

lemma piecesAt_eq_singleton_iff :
    piecesAt separator cs = [piece] ↔ cs = piece ∧ separator ∉ piece := by
  simp [piecesAt_eq_cons_iff, piecesAt_ne_nil, and_comm]

/-- A text in two pieces has one separator. -/
lemma piecesAt_eq_pair_iff : piecesAt separator cs = [before, after] ↔
    cs = before ++ separator :: after ∧ separator ∉ before ∧ separator ∉ after := by
  rw [piecesAt_eq_cons_iff]
  simp only [piecesAt_eq_singleton_iff]
  constructor
  · rintro ⟨hbefore, ⟨-, hnil⟩ | ⟨rest, rfl, rfl, hafter⟩⟩
    · cases hnil
    · exact ⟨rfl, hbefore, hafter⟩
  · rintro ⟨rfl, hbefore, hafter⟩
    exact ⟨hbefore, Or.inr ⟨after, rfl, rfl, hafter⟩⟩

end PageRender
