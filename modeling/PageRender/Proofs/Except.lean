import Mathlib.Data.List.Nodup
import PageRender.Fault

/-!
# Computations that may fail

When a computation that is put together of parts has a result, so have the parts.
-/

namespace PageRender

variable {ε α β γ : Type}

lemma exists_ok_of_toBool {x : Except ε α} (h : x.toBool = true) : ∃ a, x = .ok a := by
  cases x with
  | error e => cases h
  | ok a => exact ⟨a, rfl⟩

/-- A check of what comes of a computation is one of its result. -/
lemma of_any_toOption {x : Except ε α} {a : α} (hx : x = .ok a) {P : α → Bool}
    (hP : x.toOption.any P = true) : P a = true := by
  rw [hx] at hP
  exact hP

lemma exists_of_any_toOption {x : Except ε α} {P : α → Bool} (h : x.toOption.any P = true) :
    ∃ a, x = .ok a ∧ P a = true := by
  cases x with
  | error e => cases h
  | ok a => exact ⟨a, rfl, h⟩

lemma ok_bind (a : α) (f : α → Except ε β) : Except.ok a >>= f = f a := rfl

lemma error_bind (e : ε) (f : α → Except ε β) :
    (Except.error e : Except ε α) >>= f = .error e := rfl

lemma bind_eq_ok_iff {x : Except ε α} {f : α → Except ε β} {b : β} :
    x >>= f = .ok b ↔ ∃ a, x = .ok a ∧ f a = .ok b := by
  cases x with
  | error e =>
    constructor
    · intro h
      cases h
    · rintro ⟨a, ha, -⟩
      cases ha
  | ok a =>
    constructor
    · intro h
      exact ⟨a, rfl, h⟩
    · rintro ⟨a', ha, h⟩
      cases ha
      exact h

lemma bind_eq_error_iff {x : Except ε α} {f : α → Except ε β} {e : ε} :
    x >>= f = .error e ↔ x = .error e ∨ ∃ a, x = .ok a ∧ f a = .error e := by
  cases x with
  | error e' =>
    constructor
    · intro h
      cases h
      exact Or.inl rfl
    · rintro (h | ⟨a, ha, -⟩)
      · cases h
        rfl
      · cases ha
  | ok a =>
    constructor
    · intro h
      exact Or.inr ⟨a, rfl, h⟩
    · rintro (h | ⟨a', ha, h⟩)
      · cases h
      · cases ha
        exact h

lemma map_eq_ok_iff {x : Except ε α} {f : α → β} {b : β} :
    x.map f = .ok b ↔ ∃ a, x = .ok a ∧ f a = b := by
  cases x <;> simp [Except.map]

lemma map_eq_error_iff {x : Except ε α} {f : α → β} {e : ε} : x.map f = .error e ↔ x = .error e := by
  cases x <;> simp [Except.map]

lemma mapError_eq_ok_iff {x : Except ε α} {f : ε → β} {a : α} :
    x.mapError f = .ok a ↔ x = .ok a := by
  cases x <;> simp [Except.mapError]

lemma mapError_eq_error_iff {x : Except ε α} {f : ε → β} {e : β} :
    x.mapError f = .error e ↔ ∃ e', x = .error e' ∧ f e' = e := by
  cases x <;> simp [Except.mapError]

lemma kept_eq_ok_iff {x : Except ε Unit × α} {a : α} : kept x = .ok a ↔ x = (.ok (), a) := by
  rcases x with ⟨_ | ⟨⟩, a'⟩ <;> simp [kept]

lemma kept_eq_error_iff {x : Except ε Unit × α} {e : ε} : kept x = .error e ↔ x.1 = .error e := by
  rcases x with ⟨_ | ⟨⟩, a'⟩ <;> simp [kept]

/-- What every result shares with what it comes from, a list of results shares too. -/
lemma map_eq_of_mapM {f : α → Except ε β} {g : α → γ} {g' : β → γ} {l : List α} {l' : List β}
    (hf : ∀ a b, f a = .ok b → g' b = g a) (h : l.mapM f = .ok l') : l'.map g' = l.map g := by
  induction l generalizing l' with
  | nil =>
    cases h
    rfl
  | cons a l ih =>
    rw [List.mapM_cons, bind_eq_ok_iff] at h
    obtain ⟨b, hb, h⟩ := h
    rw [bind_eq_ok_iff] at h
    obtain ⟨rest, hrest, h⟩ := h
    cases h
    rw [List.map_cons, List.map_cons, hf a b hb, ih hrest]

/-- A list of results is missing because one of them is. -/
lemma exists_of_mapM_eq_error {f : α → Except ε β} {l : List α} {e : ε}
    (h : l.mapM f = .error e) : ∃ a ∈ l, f a = .error e := by
  induction l with
  | nil => cases h
  | cons a l ih =>
    rw [List.mapM_cons, bind_eq_error_iff] at h
    rcases h with h | ⟨b, -, h⟩
    · exact ⟨a, List.mem_cons_self, h⟩
    · rcases bind_eq_error_iff.mp h with h | ⟨rest, -, h⟩
      · obtain ⟨a', ha', hf⟩ := ih h
        exact ⟨a', List.mem_cons_of_mem a ha', hf⟩
      · cases h

lemma mapM_eq_ok_iff {f : α → Except ε β} {l : List α} {l' : List β} :
    l.mapM f = .ok l' ↔ List.Forall₂ (fun a b => f a = .ok b) l l' := by
  induction l generalizing l' with
  | nil =>
    rw [List.forall₂_nil_left_iff]
    exact ⟨fun h => (Except.ok.inj h).symm, fun h => congrArg Except.ok h.symm⟩
  | cons a l ih =>
    simp only [List.mapM_cons, bind_eq_ok_iff, ih, List.forall₂_cons_left_iff]
    constructor
    · rintro ⟨b, hb, rest, hrest, h⟩
      cases h
      exact ⟨b, rest, hb, hrest, rfl⟩
    · rintro ⟨b, rest, hb, hrest, rfl⟩
      exact ⟨b, hb, rest, hrest, rfl⟩

/-- A list of results is missing because of the first thing that has none. -/
lemma mapM_eq_error_iff {f : α → Except ε β} {l : List α} {e : ε} :
    l.mapM f = .error e ↔ ∃ before a after, l = before ++ a :: after ∧
      (∀ b ∈ before, ∃ c, f b = .ok c) ∧ f a = .error e := by
  induction l with
  | nil =>
    constructor
    · intro h
      cases h
    · rintro ⟨before, a, after, hl, -⟩
      simp at hl
  | cons a l ih =>
    rw [List.mapM_cons, bind_eq_error_iff]
    constructor
    · rintro (h | ⟨b, hb, h⟩)
      · exact ⟨[], a, l, rfl, by simp, h⟩
      · rcases bind_eq_error_iff.mp h with hrest | ⟨rest, -, hpure⟩
        · obtain ⟨before, a', after, rfl, hbefore, ha'⟩ := ih.mp hrest
          refine ⟨a :: before, a', after, rfl, ?_, ha'⟩
          rw [List.forall_mem_cons]
          exact ⟨⟨b, hb⟩, hbefore⟩
        · cases hpure
    · rintro ⟨before, a', after, hl, hbefore, ha'⟩
      cases before with
      | nil =>
        cases hl
        exact Or.inl ha'
      | cons first before =>
        obtain ⟨rfl, rfl⟩ := List.cons.inj hl
        obtain ⟨⟨b, hb⟩, hbefore⟩ := List.forall_mem_cons.mp hbefore
        refine Or.inr ⟨b, hb, ?_⟩
        rw [ih.mpr ⟨before, a', after, rfl, hbefore, ha'⟩]
        rfl

/-- Things with lists of parts have results exactly as the list of all their parts has. -/
lemma mapM_map_eq_error_iff {δ : Type} {f : β → Except ε γ} {parts : α → List β}
    {g : α → List γ → δ} {l : List α} {e : ε} :
    (l.mapM fun a => ((parts a).mapM f).map (g a)) = .error e ↔
      (l.flatMap parts).mapM f = .error e := by
  induction l with
  | nil =>
    apply iff_of_false
    · intro h
      cases h
    · intro h
      cases h
  | cons a l ih =>
    rw [List.mapM_cons, List.flatMap_cons, List.mapM_append]
    simp only [bind_eq_error_iff, map_eq_error_iff, map_eq_ok_iff, ih]
    constructor
    · rintro (h | ⟨d, ⟨c, hc, -⟩, h | ⟨rest, -, hpure⟩⟩)
      · exact Or.inl h
      · exact Or.inr ⟨c, hc, Or.inl h⟩
      · cases hpure
    · rintro (h | ⟨c, hc, h | ⟨rest, -, hpure⟩⟩)
      · exact Or.inl h
      · exact Or.inr ⟨g a c, ⟨c, hc, rfl⟩, Or.inl h⟩
      · cases hpure

/-- A series of steps fails because one of them does. -/
lemma exists_of_foldlM_eq_error {f : β → α → Except ε β} {l : List α} {b : β} {e : ε}
    (h : l.foldlM f b = .error e) : ∃ b', ∃ a ∈ l, f b' a = .error e := by
  induction l generalizing b with
  | nil => cases h
  | cons a l ih =>
    rw [List.foldlM_cons, bind_eq_error_iff] at h
    rcases h with h | ⟨next, -, h⟩
    · exact ⟨b, a, List.mem_cons_self, h⟩
    · obtain ⟨b', a', ha', hf⟩ := ih h
      exact ⟨b', a', List.mem_cons_of_mem a ha', hf⟩

/-- Steps that commute with a change commute with it as a series. -/
lemma foldlM_comm {f f' : β → α → Except ε β} {g : β → β} (hf : ∀ b a, f' (g b) a = (f b a).map g)
    (l : List α) (b : β) : l.foldlM f' (g b) = (l.foldlM f b).map g := by
  induction l generalizing b with
  | nil => rfl
  | cons a l ih =>
    rw [List.foldlM_cons, List.foldlM_cons, hf]
    cases f b a with
    | error e => rfl
    | ok next => exact ih next

/-- What every step keeps, a series of steps keeps. -/
lemma foldlM_keeps {P : β → Prop} {f : β → α → Except ε β} {l : List α} {b b' : β}
    (hf : ∀ b a b', f b a = .ok b' → P b → P b') (h : l.foldlM f b = .ok b') (hb : P b) : P b' := by
  induction l generalizing b with
  | nil =>
    cases h
    exact hb
  | cons a l ih =>
    rw [List.foldlM_cons, bind_eq_ok_iff] at h
    obtain ⟨next, hnext, h⟩ := h
    exact ih h (hf b a next hnext hb)

end PageRender
