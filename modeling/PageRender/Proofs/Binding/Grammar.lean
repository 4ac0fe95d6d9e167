import PageRender.Binding.Basic
import PageRender.Proofs.Except
import PageRender.Proofs.Text.Cutting

/-!
# The grammar of bindings

What is a binding, said without the steps in which one is read: two braces, a source, a point, a key
and two braces, with blanks before and after every part. A source and a key have at least one
character, and neither blanks nor points nor braces. Reading a binding succeeds exactly on this
grammar, and on targets that are not blank.
-/

namespace PageRender

open List

namespace Binding

variable {target expression : String} {b : Binding} {cs inner source key : List Char}

/-- A text that can name a source or a key. -/
structure IsName (cs : List Char) : Prop where
  ne_nil : cs ≠ []
  not_blank : ∀ c ∈ cs, isBlank c = false
  no_point : '.' ∉ cs
  no_opening : '{' ∉ cs
  no_closing : '}' ∉ cs

/-- A text between double braces refers to a key of a source. -/
def Refers (inner source key : List Char) : Prop :=
  IsName source ∧ IsName key ∧ ∃ w₁ w₂ w₃ w₄, AllBlank w₁ ∧ AllBlank w₂ ∧ AllBlank w₃ ∧
    AllBlank w₄ ∧ inner = w₁ ++ source ++ w₂ ++ ['.'] ++ w₃ ++ key ++ w₄

/-- A text spells a binding to a key of a source. -/
def Spells (cs source key : List Char) : Prop :=
  ∃ before inner after, AllBlank before ∧ AllBlank after ∧
    cs = before ++ (['{', '{'] ++ inner ++ ['}', '}']) ++ after ∧ Refers inner source key

/-! ### Reading in steps -/

lemma inner?_eq_some_iff : inner? cs = some inner ↔ ∃ before after, AllBlank before ∧
    AllBlank after ∧ cs = before ++ (['{', '{'] ++ inner ++ ['}', '}']) ++ after := by
  have hopening : isBlank '{' = false := by decide
  have hclosing : isBlank '}' = false := by decide
  have hlast : ∀ c ∈ (['{', '{'] ++ inner ++ ['}', '}']).getLast?, isBlank c = false := by
    rw [getLast?_append_of_ne_nil _ (by simp)]
    simpa using hclosing
  rw [← trimBlank_eq_iff (by simpa using hopening) hlast]
  simp only [inner?, Option.bind_eq_some_iff, after?_eq_some_iff, before?_eq_some_iff, opening,
    closing, append_assoc]
  constructor
  · rintro ⟨rest, hcs, rfl⟩
    exact hcs
  · intro h
    exact ⟨_, h, rfl⟩

lemma isSegment_iff : isSegment cs = true ↔ cs ≠ [] ∧ ∀ c ∈ cs, isBlank c = false := by
  simp [isSegment]

lemma no_brace_iff :
    inner.any (fun c => c = '{' || c = '}') = false ↔ '{' ∉ inner ∧ '}' ∉ inner := by
  simp only [any_eq_false, Bool.or_eq_true, decide_eq_true_eq, not_or]
  constructor
  · intro h
    exact ⟨fun hmem => (h _ hmem).1 rfl, fun hmem => (h _ hmem).2 rfl⟩
  · rintro ⟨hopening, hclosing⟩ c hc
    exact ⟨fun heq => hopening (heq ▸ hc), fun heq => hclosing (heq ▸ hc)⟩

/-- What is checked when a binding is read. -/
lemma parse_eq_ok_iff : parse target expression = .ok b ↔ ∃ inner source key,
    inner? expression.toList = some inner ∧ ('{' ∉ inner ∧ '}' ∉ inner) ∧
      (piecesAt '.' (trimBlank inner)).map trimBlank = [source, key] ∧
      (isSegment source = true ∧ isSegment key = true) ∧ trimBlank target.toList ≠ [] ∧
      b = ⟨target, sourceOf source, String.ofList key, expression⟩ := by
  constructor
  · intro h
    unfold parse at h
    split at h
    · cases h
    next inner hinner =>
    split at h
    · cases h
    next hbraces =>
    split at h
    · next source key hpieces =>
      split at h
      · cases h
      next hsegments =>
      split at h
      · cases h
      next htarget =>
      cases h
      rw [Bool.not_eq_true, no_brace_iff] at hbraces
      rw [Bool.not_eq_true, Bool.not_eq_false', Bool.and_eq_true] at hsegments
      rw [List.isEmpty_iff] at htarget
      exact ⟨inner, source, key, hinner, hbraces, hpieces, hsegments, htarget, rfl⟩
    · cases h
  · rintro ⟨inner, source, key, hinner, hbraces, hpieces, ⟨hsource, hkey⟩, htarget, rfl⟩
    simp [parse, hinner, no_brace_iff.mpr hbraces, hpieces, hsource, hkey, htarget]

/-! ### What stands between the braces -/

/-- What refers to a key of a source has two segments, and they are the source and the key. -/
lemma segments_of_refers (h : Refers inner source key) :
    (piecesAt '.' (trimBlank inner)).map trimBlank = [source, key] := by
  obtain ⟨hsource, hkey, w₁, w₂, w₃, w₄, h₁, h₂, h₃, h₄, rfl⟩ := h
  have hpoint : isBlank '.' = false := by decide
  have hshape : w₁ ++ source ++ w₂ ++ ['.'] ++ w₃ ++ key ++ w₄ =
      w₁ ++ ((source ++ w₂) ++ '.' :: (w₃ ++ key)) ++ w₄ := by simp
  have htrim : trimBlank ((source ++ w₂) ++ '.' :: (w₃ ++ key)) =
      (source ++ w₂) ++ '.' :: (w₃ ++ key) := by
    apply trimBlank_eq_self
    · rw [append_assoc, head?_append_of_ne_nil _ hsource.ne_nil]
      intro c hc
      exact hsource.not_blank c (mem_of_mem_head? hc)
    · rw [← cons_append, ← append_assoc, getLast?_append_of_ne_nil _ hkey.ne_nil]
      intro c hc
      exact hkey.not_blank c (mem_of_getLast? hc)
  have hpieces : piecesAt '.' ((source ++ w₂) ++ '.' :: (w₃ ++ key)) = [source ++ w₂, w₃ ++ key] :=
    piecesAt_eq_pair_iff.mpr ⟨rfl, by simp [hsource.no_point, h₂.not_mem hpoint],
      by simp [hkey.no_point, h₃.not_mem hpoint]⟩
  have hleft : trimBlank (source ++ w₂) = source := by
    simpa using trimBlank_surrounded allBlank_nil h₂ hsource.not_blank
  have hright : trimBlank (w₃ ++ key) = key := by
    simpa using trimBlank_surrounded h₃ allBlank_nil hkey.not_blank
  rw [hshape, trimBlank_append h₁ h₄, htrim, hpieces, map_cons, map_singleton, hleft, hright]

lemma no_brace_of_refers (h : Refers inner source key) : '{' ∉ inner ∧ '}' ∉ inner := by
  obtain ⟨hsource, hkey, w₁, w₂, w₃, w₄, h₁, h₂, h₃, h₄, rfl⟩ := h
  have hopening : isBlank '{' = false := by decide
  have hclosing : isBlank '}' = false := by decide
  constructor
  · simp [hsource.no_opening, hkey.no_opening, h₁.not_mem hopening, h₂.not_mem hopening,
      h₃.not_mem hopening, h₄.not_mem hopening]
  · simp [hsource.no_closing, hkey.no_closing, h₁.not_mem hclosing, h₂.not_mem hclosing,
      h₃.not_mem hclosing, h₄.not_mem hclosing]

/-- Two segments that have passed the checks are a source and a key. -/
lemma refers_of_segments (hbraces : '{' ∉ inner ∧ '}' ∉ inner)
    (hsegments : (piecesAt '.' (trimBlank inner)).map trimBlank = [source, key])
    (hsource : isSegment source = true) (hkey : isSegment key = true) :
    Refers inner source key := by
  obtain ⟨left, pieces, hpieces, hleft, hrest⟩ := map_eq_cons_iff.mp hsegments
  obtain ⟨right, hright, rfl⟩ := map_eq_singleton_iff.mp hrest
  rw [hright, piecesAt_eq_pair_iff] at hpieces
  obtain ⟨htrim, hleftPoint, hrightPoint⟩ := hpieces
  obtain ⟨before, after, hbefore, hafter, hinner⟩ := exists_trimBlank inner
  obtain ⟨x₁, x₂, hx₁, hx₂, hxs⟩ := exists_trimBlank left
  obtain ⟨y₁, y₂, hy₁, hy₂, hys⟩ := exists_trimBlank right
  generalize trimBlank right = key at *
  rw [hleft] at hxs
  have hshape : inner =
      (before ++ x₁) ++ source ++ x₂ ++ ['.'] ++ y₁ ++ key ++ (y₂ ++ after) := by
    rw [hinner, htrim, hxs, hys]
    simp
  obtain ⟨hsourceNil, hsourceBlank⟩ := isSegment_iff.mp hsource
  obtain ⟨hkeyNil, hkeyBlank⟩ := isSegment_iff.mp hkey
  simp only [hshape, mem_append, not_or] at hbraces
  simp only [hxs, mem_append, not_or] at hleftPoint
  simp only [hys, mem_append, not_or] at hrightPoint
  exact ⟨⟨hsourceNil, hsourceBlank, by tauto, by tauto, by tauto⟩,
    ⟨hkeyNil, hkeyBlank, by tauto, by tauto, by tauto⟩, before ++ x₁, x₂, y₁, y₂ ++ after,
    allBlank_append.mpr ⟨hbefore, hx₁⟩, hx₂, hy₁, allBlank_append.mpr ⟨hy₂, hafter⟩, hshape⟩

/-! ### The grammar -/

lemma parse_eq_ok_iff_spells : parse target expression = .ok b ↔
    ¬AllBlank target.toList ∧ ∃ source key, Spells expression.toList source key ∧
      b = ⟨target, sourceOf source, String.ofList key, expression⟩ := by
  rw [parse_eq_ok_iff]
  constructor
  · rintro ⟨inner, source, key, hinner, hbraces, hsegments, ⟨hsource, hkey⟩, htarget, hb⟩
    have hrefers := refers_of_segments hbraces hsegments hsource hkey
    obtain ⟨before, after, hbefore, hafter, hshape⟩ := inner?_eq_some_iff.mp hinner
    exact ⟨mt trimBlank_eq_nil_iff.mpr htarget, source, key,
      ⟨before, inner, after, hbefore, hafter, hshape, hrefers⟩, hb⟩
  · rintro ⟨htarget, source, key, ⟨before, inner, after, hbefore, hafter, hshape, hrefers⟩, hb⟩
    have hinner := inner?_eq_some_iff.mpr ⟨before, after, hbefore, hafter, hshape⟩
    have hsource := isSegment_iff.mpr ⟨hrefers.1.ne_nil, hrefers.1.not_blank⟩
    have hkey := isSegment_iff.mpr ⟨hrefers.2.1.ne_nil, hrefers.2.1.not_blank⟩
    exact ⟨inner, source, key, hinner, no_brace_of_refers hrefers,
      segments_of_refers hrefers, ⟨hsource, hkey⟩, mt trimBlank_eq_nil_iff.mp htarget, hb⟩

/-- A binding is read exactly if its target is not blank and its expression is two braces, a source,
a point, a key and two braces, with blanks around the parts. What is read has the target and the
expression as they were written, the key, and the caller's parameters for its source if the source
is their word, else the component of this name. Otherwise the fault is an invalid binding with the
expression. -/
theorem bindings_follow_grammar (target expression : String) :
    (∀ b, ofWritten ⟨target, expression⟩ = .ok b ↔
      (∃ c ∈ target.toList, isBlank c = false) ∧ ∃ source key : String,
        Spells expression.toList source.toList key.toList ∧
        b = ⟨target, if source = "inParams" then .params else .component source, key,
          expression⟩) ∧
    ((∃ reason, ofWritten ⟨target, expression⟩ = .error (.invalidBinding expression reason)) ↔
      ¬((∃ c ∈ target.toList, isBlank c = false) ∧ ∃ source key : String,
        Spells expression.toList source.toList key.toList)) := by
  have hread (b : Binding) : ofWritten ⟨target, expression⟩ = .ok b ↔
      (∃ c ∈ target.toList, isBlank c = false) ∧ ∃ source key : String,
        Spells expression.toList source.toList key.toList ∧
        b = ⟨target, if source = "inParams" then .params else .component source, key,
          expression⟩ := by
    rw [ofWritten, mapError_eq_ok_iff, parse_eq_ok_iff_spells]
    apply and_congr
    · simp [AllBlank]
    · constructor
      · rintro ⟨source, key, hspells, rfl⟩
        refine ⟨String.ofList source, String.ofList key, ?_, rfl⟩
        simpa using hspells
      · rintro ⟨source, key, hspells, rfl⟩
        refine ⟨source.toList, key.toList, hspells, ?_⟩
        simp [sourceOf, paramsWord]
  refine ⟨hread, ?_⟩
  cases h : ofWritten ⟨target, expression⟩ with
  | ok b =>
    obtain ⟨htarget, source, key, hspells, -⟩ := (hread b).mp h
    simp only [reduceCtorEq, exists_false, false_iff, not_not]
    exact ⟨htarget, source, key, hspells⟩
  | error f =>
    obtain ⟨fault, -, rfl⟩ := mapError_eq_error_iff.mp h
    refine iff_of_true ⟨_, rfl⟩ ?_
    rintro ⟨htarget, source, key, hspells⟩
    rw [(hread _).mpr ⟨htarget, source, key, hspells, rfl⟩] at h
    cases h

-- an ideographic space in front and a no-break space before the point are blanks like any others
example : parse "list" "\u3000\x7b\x7b filter\u00a0. value\x7d\x7d" =
    .ok ⟨"list", .component "filter", "value", "\u3000\x7b\x7b filter\u00a0. value\x7d\x7d"⟩ := by
  decide

end Binding

end PageRender
