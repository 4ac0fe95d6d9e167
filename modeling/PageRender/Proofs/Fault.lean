import Mathlib.Data.List.Nodup
import PageRender.Binding.Basic
import PageRender.Fault
import PageRender.Proofs.Text.Cutting
import PageRender.Proofs.Text.Replacing

/-!
# Templates that are filled

A template is filled if every argument stands in its places and all else is as it was, `Filled`.
What an argument brings with it is no part of the template: it is not read for places. A fault puts
its arguments into the template one after the other, so what comes of it is the filled template only
as long as an argument brings no place for a later one.
-/

namespace PageRender

open List

namespace Fault

variable {arguments : List (String × String)} {name name' argument : String}
  {template out out' cs : List Char} {c : Char}

/-- Every argument is in its places in a template, and all else is as it was. -/
inductive Filled (arguments : List (String × String)) : List Char → List Char → Prop
  | nil : Filled arguments [] []
  /-- The place of an argument holds its text. -/
  | argument {name argument : String} {cs out : List Char} (h : (name, argument) ∈ arguments)
    (hrest : Filled arguments cs out) :
    Filled arguments (placeholder name ++ cs) (argument.toList ++ out)
  /-- A character at which no place begins stays. -/
  | char {c : Char} {cs out : List Char} (h : ∀ entry ∈ arguments, ¬placeholder entry.1 <+: c :: cs)
    (hrest : Filled arguments cs out) : Filled arguments (c :: cs) (c :: out)

/-- Arguments whose places can be told apart: their names are distinct and have no braces. -/
structure Distinguished (arguments : List (String × String)) : Prop where
  nodup : (arguments.map Prod.fst).Nodup
  no_brace : ∀ entry ∈ arguments, '{' ∉ entry.1.toList ∧ '}' ∉ entry.1.toList

lemma Distinguished.of_append {arguments' : List (String × String)}
    (h : Distinguished (arguments ++ arguments')) : Distinguished arguments where
  nodup := Nodup.of_append_left (map_append ▸ h.nodup)
  no_brace entry hentry := h.no_brace entry (mem_append_left _ hentry)

lemma distinguished_arguments (f : Fault) : Distinguished f.arguments := by
  constructor
  · cases f <;> simp [Fault.arguments]
  · cases f <;> simp [Fault.arguments]

lemma exists_arguments_eq (f : Fault) :
    (∃ name argument, f.arguments = [(name, argument)]) ∨
      ∃ first argument second argument',
        f.arguments = [(first, argument), (second, argument')] := by
  cases f <;> simp [Fault.arguments]

/-! ### Places -/

lemma placeholder_eq (name : String) : placeholder name = '{' :: (name.toList ++ ['}']) := rfl

lemma placeholder_append (name : String) (cs : List Char) :
    placeholder name ++ cs = '{' :: (name.toList ++ ['}'] ++ cs) := rfl

lemma placeholder_ne_nil (name : String) : placeholder name ≠ [] :=
  cons_ne_nil _ _

lemma opening_not_mem (h : '{' ∉ name.toList) : '{' ∉ name.toList ++ ['}'] := by
  simp [h]

/-- Only the place of a name begins like the place of that name. -/
lemma eq_of_placeholder_start (hname : '}' ∉ name.toList) (hname' : '}' ∉ name'.toList)
    (h : placeholder name <+: placeholder name' ++ cs) : name = name' := by
  obtain ⟨rest, hrest⟩ := h
  have htext : name.toList ++ '}' :: rest = name'.toList ++ '}' :: cs := by
    simpa [placeholder] using hrest
  have hpieces := congrArg (piecesAt '}') htext
  rw [piecesAt_append_cons hname, piecesAt_append_cons hname'] at hpieces
  exact String.toList_injective (cons.inj hpieces).1

lemma Distinguished.eq_of_start (h : Distinguished arguments)
    {entry : String × String} (hentry : entry ∈ arguments) (hmem : (name, argument) ∈ arguments)
    (hstart : placeholder entry.1 <+: placeholder name ++ cs) : entry = (name, argument) := by
  have hname := eq_of_placeholder_start (h.no_brace entry hentry).2 (h.no_brace _ hmem).2 hstart
  exact inj_on_of_nodup_map h.nodup hentry hmem hname

/-! ### Filling at once -/

namespace Filled

lemma of_nil (h : Filled arguments [] out) : out = [] := by
  generalize htext : [] = text at h
  cases h with
  | nil => rfl
  | argument => exact absurd (append_eq_nil_iff.mp htext.symm).1 (placeholder_ne_nil _)
  | char => cases htext

lemma of_cons (h : Filled arguments (c :: cs) out)
    (hnot : ∀ entry ∈ arguments, ¬placeholder entry.1 <+: c :: cs) :
    ∃ out', out = c :: out' ∧ Filled arguments cs out' := by
  generalize htext : c :: cs = text at h
  cases h with
  | nil => cases htext
  | argument hmem =>
    have hstart := hnot _ hmem
    rw [htext] at hstart
    exact absurd (prefix_append _ _) hstart
  | char _ hrest =>
    cases htext
    exact ⟨_, rfl, hrest⟩

lemma of_placeholder (harguments : Distinguished arguments) (hmem : (name, argument) ∈ arguments)
    (h : Filled arguments (placeholder name ++ cs) out) :
    ∃ out', out = argument.toList ++ out' ∧ Filled arguments cs out' := by
  generalize htext : placeholder name ++ cs = text at h
  cases h with
  | nil => cases htext
  | @argument name' argument' cs' out' hmem' hrest =>
    have hstart : placeholder name' <+: placeholder name ++ cs := htext ▸ prefix_append _ _
    cases harguments.eq_of_start hmem' hmem hstart
    rw [append_cancel_left htext]
    exact ⟨_, rfl, hrest⟩
  | char hnot =>
    have hstart := hnot _ hmem
    rw [← htext] at hstart
    exact absurd (prefix_append _ _) hstart

/-- What has no opening brace stays as it is. -/
lemma of_append {block : List Char} (h : Filled arguments (block ++ cs) out)
    (hblock : '{' ∉ block) : ∃ out', out = block ++ out' ∧ Filled arguments cs out' := by
  induction block generalizing out with
  | nil => exact ⟨out, rfl, h⟩
  | cons c block ih =>
    obtain ⟨hc, hblock⟩ := not_or.mp (mem_cons.not.mp hblock)
    obtain ⟨rest, rfl, hrest⟩ := of_cons h fun entry _ => not_prefix_of_ne (Ne.symm hc)
    obtain ⟨out', rfl, hout'⟩ := ih hrest hblock
    exact ⟨out', rfl, hout'⟩

lemma unique (harguments : Distinguished arguments) (h : Filled arguments template out)
    (h' : Filled arguments template out') : out = out' := by
  induction h generalizing out' with
  | nil => exact h'.of_nil.symm
  | argument hmem _ ih =>
    obtain ⟨rest, rfl, hrest⟩ := h'.of_placeholder harguments hmem
    rw [ih hrest]
  | char hnot _ ih =>
    obtain ⟨rest, rfl, hrest⟩ := h'.of_cons hnot
    rw [ih hrest]

end Filled

lemma filled_self (template : List Char) : Filled [] template template := by
  induction template with
  | nil => exact .nil
  | cons c cs ih => exact .char (by simp) ih

/-- Every template can be filled. -/
lemma exists_filled (arguments : List (String × String)) (template : List Char) :
    ∃ out, Filled arguments template out := by
  match template with
  | [] => exact ⟨[], .nil⟩
  | c :: cs =>
    by_cases h : ∃ entry ∈ arguments, placeholder entry.1 <+: c :: cs
    · obtain ⟨entry, hentry, rest, hrest⟩ := h
      obtain ⟨out, hout⟩ := exists_filled arguments rest
      rw [← hrest]
      exact ⟨_, hout.argument hentry⟩
    · obtain ⟨out, hout⟩ := exists_filled arguments cs
      exact ⟨_, hout.char fun entry hentry hstart => h ⟨entry, hentry, hstart⟩⟩
termination_by template.length
decreasing_by
  · have hlength := congrArg length hrest
    rw [length_append, placeholder_eq, length_cons] at hlength
    omega
  · simp

/-! ### Filling one after the other -/

lemma fill_append_singleton (template : List Char) (arguments : List (String × String))
    (name argument : String) : fill template (arguments ++ [(name, argument)]) =
      replaceAll (placeholder name) argument.toList (fill template arguments) := by
  rw [fill, foldl_append]
  rfl

/-- To put in one argument more is to replace those of its places that the template had. -/
lemma Filled.replaces {filled : List Char}
    (harguments : Distinguished (arguments ++ [(name, argument)]))
    (h : Filled (arguments ++ [(name, argument)]) template out)
    (hfilled : Filled arguments template filled) :
    Replaces (placeholder name) argument.toList (occurrences (placeholder name) template) filled
      out := by
  have hlast : (name, argument) ∈ arguments ++ [(name, argument)] := by simp
  have hbrace := (harguments.no_brace _ hlast).1
  have hnew : ∀ entry ∈ arguments, entry ≠ (name, argument) := by
    rintro _ hentry rfl
    have hnodup := harguments.nodup
    rw [map_append, map_singleton, nodup_append] at hnodup
    exact hnodup.2.2 _ (mem_map_of_mem hentry) _ (mem_singleton_self _) rfl
  induction h generalizing filled with
  | nil =>
    rw [hfilled.of_nil, occurrences_nil (placeholder_ne_nil name)]
    exact .nil
  | @argument name' argument' cs out hmem _ ih =>
    rcases mem_append.mp hmem with hmem' | hmem'
    · obtain ⟨rest, rfl, hrest⟩ := hfilled.of_placeholder harguments.of_append hmem'
      have hstart : ¬placeholder name <+: placeholder name' ++ cs := fun hstart =>
        hnew _ hmem' (harguments.eq_of_start hlast hmem hstart).symm
      have hcount : occurrences (placeholder name) (placeholder name' ++ cs) =
          occurrences (placeholder name) cs := by
        rw [placeholder_append] at hstart ⊢
        rw [occurrences_cons_of_not hstart, placeholder_eq name,
          occurrences_append_of_not_mem (opening_not_mem (harguments.no_brace _ hmem).1)]
      rw [hcount]
      exact (ih hrest).append_left _
    · cases mem_singleton.mp hmem'
      have hstart : ∀ entry ∈ arguments, ¬placeholder entry.1 <+: placeholder name ++ cs :=
        fun entry hentry hstart => hnew entry hentry
          (harguments.eq_of_start (mem_append_left _ hentry) hlast hstart)
      rw [placeholder_append] at hfilled hstart
      obtain ⟨rest, rfl, hrest⟩ := hfilled.of_cons hstart
      obtain ⟨after, rfl, hafter⟩ := hrest.of_append (opening_not_mem hbrace)
      rw [placeholder_eq name, occurrences_needle_append (opening_not_mem hbrace)]
      exact (ih hafter).occurrence
  | @char c cs out hnot _ ih =>
    obtain ⟨rest, rfl, hrest⟩ :=
      hfilled.of_cons fun entry hentry => hnot entry (mem_append_left _ hentry)
    rw [occurrences_cons_of_not (hnot _ hlast)]
    exact (ih hrest).char

/-- Where all arguments but the last fill a template, the last one does so too exactly if they have
brought no place for it, or if it is its own place. -/
lemma filled_fill_append_iff (harguments : Distinguished (arguments ++ [(name, argument)]))
    (h : Filled arguments template (fill template arguments)) :
    Filled (arguments ++ [(name, argument)]) template
        (fill template (arguments ++ [(name, argument)])) ↔
      argument.toList = placeholder name ∨
        occurrences (placeholder name) (fill template arguments) =
          occurrences (placeholder name) template := by
  obtain ⟨out, hout⟩ := exists_filled (arguments ++ [(name, argument)]) template
  have hbrace := (harguments.no_brace (name, argument) (by simp)).1
  have heq := (hout.replaces harguments h).eq_replaceAll_iff (opening_not_mem hbrace)
  rw [← placeholder_eq, ← fill_append_singleton, @eq_comm _ (occurrences _ template)] at heq
  rw [← heq]
  constructor
  · intro hfill
    exact hout.unique harguments hfill
  · intro hfill
    rwa [← hfill]

lemma filled_fill_singleton (harguments : Distinguished [(name, argument)])
    (template : List Char) : Filled [(name, argument)] template
      (fill template [(name, argument)]) := by
  have hlast : Distinguished ([] ++ [(name, argument)]) := harguments
  exact (filled_fill_append_iff hlast (filled_self template)).mpr (Or.inr rfl)

section

variable {f : Fault} {translator : Translator} {locale text : String}

lemma toList_describe (h : translator.text? locale f.messageKey = some text) :
    (f.describe translator locale).toList = fill text.toList f.arguments := by
  rw [describe, h, String.toList_ofList]

/-- A template can be filled in exactly one way. A fault that has a single argument is described by
its filled template. One that has two is so exactly if the first argument, once it is in its places,
has brought no further place for the second, or if the second is its own place. -/
theorem describe_fills_template_iff (h : translator.text? locale f.messageKey = some text) :
    (∃! filled, Filled f.arguments text.toList filled) ∧
    (Filled f.arguments text.toList (f.describe translator locale).toList ↔
      ∀ first argument second argument',
        f.arguments = [(first, argument), (second, argument')] →
        argument'.toList = placeholder second ∨
          occurrences (placeholder second) (fill text.toList [(first, argument)]) =
            occurrences (placeholder second) text.toList) := by
  have harguments := f.distinguished_arguments
  constructor
  · obtain ⟨filled, hfilled⟩ := exists_filled f.arguments text.toList
    exact ⟨filled, hfilled, fun other hother => hother.unique harguments hfilled⟩
  · rw [toList_describe h]
    obtain ⟨name, argument, heq⟩ | ⟨first, argument, second, argument', heq⟩ :=
      f.exists_arguments_eq
    · rw [heq] at harguments ⊢
      simp [filled_fill_singleton harguments]
    · rw [heq] at harguments ⊢
      rw [← singleton_append] at harguments
      have hiff := filled_fill_append_iff harguments
        (filled_fill_singleton harguments.of_append text.toList)
      rw [singleton_append] at hiff
      rw [hiff]
      constructor
      · rintro hplaces _ _ _ _ ⟨⟩
        exact hplaces
      · intro hplaces
        exact hplaces _ _ _ _ rfl

/-- Neither argument brings a place of the other. -/
theorem describe_fills_template_iff_noState :
    let f : Fault := .noState "filter" "value"
    let text := "State \x7bkey\x7d of \x7bcomponent\x7d \x7bis\x7d missing"
    let translator := (Phrasebook.add .empty "en" f.messageKey text).translator
    let described := "State value of filter \x7bis\x7d missing"
    translator.text? "en" f.messageKey = some text ∧
      f.describe translator "en" = described ∧
      Filled f.arguments text.toList described.toList := by
  intro f text translator described
  have htext : translator.text? "en" f.messageKey = some text := rfl
  have hdescribe : f.describe translator "en" = described := by decide
  refine ⟨htext, hdescribe, ?_⟩
  rw [← hdescribe]
  refine (describe_fills_template_iff htext).2.mpr ?_
  rintro _ _ _ _ ⟨⟩
  exact Or.inr (by decide)

/-- A binding without a key brings the place of the reason that it is malformed. So the reason is
put into what was written, which the filled template would show as it was. -/
theorem describe_fills_argument :
    let expression := "\x7b\x7breason\x7d\x7d"
    let reason := "expected `source.key`, found 1 segment(s)"
    let f : Fault := .invalidBinding expression reason
    let text := "\x7bexpression\x7d: \x7breason\x7d"
    let translator := (Phrasebook.add .empty "en" f.messageKey text).translator
    Binding.ofWritten ⟨"list", expression⟩ = .error f ∧
      translator.text? "en" f.messageKey = some text ∧
      Filled f.arguments text.toList (expression ++ ": " ++ reason).toList ∧
      f.describe translator "en" = "\x7b" ++ reason ++ "\x7d: " ++ reason ∧
      ¬Filled f.arguments text.toList (f.describe translator "en").toList := by
  intro expression reason f text translator
  have hfilled : Filled f.arguments text.toList (expression ++ ": " ++ reason).toList := by
    have hreason : Filled f.arguments (placeholder "reason" ++ []) (reason.toList ++ []) :=
      .argument (by decide) .nil
    have hbetween : Filled f.arguments (':' :: ' ' :: (placeholder "reason" ++ []))
        (':' :: ' ' :: (reason.toList ++ [])) := .char (by decide) (.char (by decide) hreason)
    have hmem : ("expression", expression) ∈ f.arguments := by decide
    have htext : text.toList =
        placeholder "expression" ++ ':' :: ' ' :: (placeholder "reason" ++ []) := by decide
    have hright : (expression ++ ": " ++ reason).toList =
        expression.toList ++ ':' :: ' ' :: (reason.toList ++ []) := by decide
    rw [htext, hright]
    exact .argument hmem hbetween
  refine ⟨by decide, rfl, hfilled, by decide, ?_⟩
  intro hdescribe
  have heq := hfilled.unique f.distinguished_arguments hdescribe
  revert heq
  decide

end

end Fault

end PageRender
