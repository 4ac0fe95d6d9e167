import PageRender.Proofs.Binding.Resolve
import PageRender.Proofs.Dict
import PageRender.Proofs.Pass.Atomic

/-!
# What bindings fill in

A binding has no value if it reads from a component that has not rendered or is not there, or whose
state lacks the key. Of several such bindings the first is reported. If there is none, every binding
delivers a value, and the values are written into the state of the component that is to render.
-/

namespace PageRender

open List

namespace Component

variable {c : Component} {resolved : List (String × Value)}

lemma fill_cons (c : Component) (entry : String × Value) (resolved : List (String × Value)) :
    c.fill (entry :: resolved) = (c.setState entry.1 entry.2).fill resolved := rfl

/-- The state is filled as a dictionary is. -/
lemma stateFields_fill (c : Component) (resolved : List (String × Value)) :
    (c.fill resolved).stateFields = c.stateFields.insertAll resolved := by
  induction resolved generalizing c with
  | nil => rfl
  | cons entry resolved ih =>
    rw [fill_cons, ih, Dict.insertAll_cons]
    rfl

/-- Only the state is filled. It stays absent if it was and there is nothing to be written. -/
lemma fill_eq (c : Component) (resolved : List (String × Value)) : c.fill resolved =
    if resolved = [] then c else { c with state := some (c.stateFields.insertAll resolved) } := by
  induction resolved generalizing c with
  | nil => rfl
  | cons entry resolved ih =>
    rw [fill_cons, ih, if_neg (cons_ne_nil entry resolved)]
    cases resolved <;> rfl

end Component

namespace Sources

variable {s : Sources} {component : String} {b : Binding} {bindings : List Binding} {f : Fault}
  {v : Value} {resolved : List (String × Value)}

/-- What a binding delivers. -/
inductive Delivers (s : Sources) (b : Binding) : Value → Prop
  | parameter {v : Value} (hsource : b.source = .params) (h : s.params.get? b.key = some v) :
      Delivers s b v
  | noParameter (hsource : b.source = .params) (h : s.params.get? b.key = none) :
      Delivers s b .null
  | state {name : String} {c : Component} {v : Value} (hsource : b.source = .component name)
      (hrendered : name ∈ s.rendered) (hc : s.components.get? name = some c)
      (h : c.stateValue? b.key = some v) : Delivers s b v

/-- Why a binding of a component delivers nothing, as the fault that is reported. -/
inductive Lacks (s : Sources) (component : String) (b : Binding) : Fault → Prop
  | unrendered {name : String} (hsource : b.source = .component name)
      (h : name ∉ s.rendered) : Lacks s component b (.notRendered component name)
  | missing {name : String} (hsource : b.source = .component name)
      (h : s.components.get? name = none) : Lacks s component b (.notRendered component name)
  | keyless {name : String} {c : Component} (hsource : b.source = .component name)
      (hrendered : name ∈ s.rendered) (hc : s.components.get? name = some c)
      (h : c.stateValue? b.key = none) : Lacks s component b (.noState name b.key)

lemma state?_eq_none_iff {name : String} :
    s.state? name = none ↔ name ∉ s.rendered ∨ s.components.get? name = none := by
  by_cases h : name ∈ s.rendered <;> simp [state?, h]

lemma value_eq_ok_iff_delivers : s.value component b = .ok v ↔ s.Delivers b v := by
  cases hsource : b.source with
  | params =>
    rw [value_of_params hsource, Except.ok.injEq]
    constructor
    · rintro rfl
      cases hkey : s.params.get? b.key with
      | none => exact .noParameter hsource hkey
      | some v => exact .parameter hsource hkey
    · rintro (⟨-, hkey⟩ | ⟨-, hkey⟩ | ⟨hname, -, -, -⟩)
      · rw [hkey, Option.getD_some]
      · rw [hkey, Option.getD_none]
      · rw [hsource] at hname
        cases hname
  | component name =>
    rw [value_of_component_eq_ok_iff hsource]
    constructor
    · rintro ⟨fields, hfields, hkey⟩
      obtain ⟨hrendered, c, hc, rfl⟩ := state?_eq_some_iff.mp hfields
      rw [Component.get?_stateFields] at hkey
      exact .state hsource hrendered hc hkey
    · rintro (⟨hparams, -⟩ | ⟨hparams, -⟩ | ⟨hname, hrendered, hc, hkey⟩)
      · rw [hsource] at hparams
        cases hparams
      · rw [hsource] at hparams
        cases hparams
      · rw [hsource] at hname
        cases hname
        exact ⟨_, state?_eq_some_iff.mpr ⟨hrendered, _, hc, rfl⟩,
          (Component.get?_stateFields _ _).trans hkey⟩

lemma value_eq_error_iff_lacks : s.value component b = .error f ↔ s.Lacks component b f := by
  constructor
  · intro h
    unfold value at h
    split at h
    · cases h
    · next name hsource =>
      split at h
      · next hstate =>
        cases h
        exact (state?_eq_none_iff.mp hstate).elim (.unrendered hsource) (.missing hsource)
      · next fields hfields =>
        obtain ⟨hrendered, c, hc, rfl⟩ := state?_eq_some_iff.mp hfields
        split at h
        · next hkey =>
          cases h
          rw [Component.get?_stateFields] at hkey
          exact .keyless hsource hrendered hc hkey
        · cases h
  · rintro (⟨hsource, hnot⟩ | ⟨hsource, hnone⟩ | ⟨hsource, hrendered, hc, hkey⟩)
    · simp [value, hsource, state?_eq_none_iff.mpr (Or.inl hnot)]
    · simp [value, hsource, state?_eq_none_iff.mpr (Or.inr hnone)]
    · simp [value, hsource, state?_eq_some_iff.mpr ⟨hrendered, _, hc, rfl⟩,
        Component.get?_stateFields, hkey]

/-- A binding delivers a value unless it lacks one. -/
lemma exists_value_iff : (∃ v, s.value component b = .ok v) ↔ ∀ f, ¬s.Lacks component b f := by
  simp only [← value_eq_error_iff_lacks]
  cases s.value component b <;> simp

lemma resolve_eq_ok_iff : s.resolve component bindings = .ok resolved ↔
    Forall₂ (fun b entry => entry.1 = b.target ∧ s.Delivers b entry.2) bindings resolved := by
  have hentry (b : Binding) (entry : String × Value) :
      (s.value component b).map (b.target, ·) = .ok entry ↔
        entry.1 = b.target ∧ s.Delivers b entry.2 := by
    rw [map_eq_ok_iff]
    simp only [value_eq_ok_iff_delivers]
    constructor
    · rintro ⟨v, hv, rfl⟩
      exact ⟨rfl, hv⟩
    · rintro ⟨htarget, hv⟩
      exact ⟨entry.2, hv, by rw [← htarget]⟩
  simp only [resolve, mapM_eq_ok_iff, hentry]

/-- The first binding that lacks a value is reported. -/
lemma resolve_eq_error_iff : s.resolve component bindings = .error f ↔
    ∃ before b after, bindings = before ++ b :: after ∧
      (∀ earlier ∈ before, ∀ f', ¬s.Lacks component earlier f') ∧ s.Lacks component b f := by
  have hentry (b : Binding) : (∃ entry, (s.value component b).map (b.target, ·) = .ok entry) ↔
      ∀ f', ¬s.Lacks component b f' := by
    rw [← exists_value_iff]
    cases s.value component b <;> simp [Except.map]
  simp only [resolve, mapM_eq_error_iff, map_eq_error_iff, value_eq_error_iff_lacks, hentry]

lemma exists_resolve_error_iff : (∃ f, s.resolve component bindings = .error f) ↔
    ∃ b ∈ bindings, ∃ f, s.Lacks component b f := by
  constructor
  · rintro ⟨f, hf⟩
    obtain ⟨before, b, after, rfl, -, hlacks⟩ := resolve_eq_error_iff.mp hf
    exact ⟨b, by simp, f, hlacks⟩
  · rintro ⟨b, hb, f, hlacks⟩
    cases hresolve : s.resolve component bindings with
    | error f' => exact ⟨f', rfl⟩
    | ok resolved =>
      obtain ⟨before, after, rfl⟩ := append_of_mem hb
      obtain ⟨front, v, back, hv, -⟩ := exists_value_of_resolve hresolve
      exact absurd hlacks (exists_value_iff.mp ⟨v, hv⟩ f)

end Sources

/-- Resolving the bindings of a component fails exactly if one of them reads from a component that
has not rendered or is not there, or whose state lacks the key, and the fault is that of the first
such binding. Otherwise there is a value for every target, in order, and filling them into a
component touches its state only: a target has what its last binding delivers, every other key has
what it had, the keys that were there keep their places, and new ones follow in the order in which
they are first named. As many values are written as there are bindings, and so many a pass counts. -/
theorem bindings_fill_state (s : Sources) (component : String) (bindings : List Binding)
    (c : Component) :
    ((∃ f, s.resolve component bindings = .error f) ↔
      ∃ b ∈ bindings, ∃ f, s.Lacks component b f) ∧
    (∀ f, s.resolve component bindings = .error f ↔ ∃ before b after,
      bindings = before ++ b :: after ∧
      (∀ earlier ∈ before, ∀ f', ¬s.Lacks component earlier f') ∧ s.Lacks component b f) ∧
    ((∀ b ∈ bindings, ∀ f, ¬s.Lacks component b f) → ∃ resolved,
      s.resolve component bindings = .ok resolved ∧
      Forall₂ (fun b entry => entry.1 = b.target ∧ s.Delivers b entry.2) bindings resolved ∧
      (∀ before b after, bindings = before ++ b :: after →
        (∀ later ∈ after, later.target ≠ b.target) →
        ∃ v, s.Delivers b v ∧ (c.fill resolved).stateValue? b.target = some v) ∧
      (∀ key, (∀ b ∈ bindings, b.target ≠ key) →
        (c.fill resolved).stateValue? key = c.stateValue? key) ∧
      (c.fill resolved).stateFields.keys = c.stateFields.keys ++
        (bindings.map Binding.target).eraseDups.filter (· ∉ c.stateFields.keys) ∧
      c.fill resolved = { c with state := (c.fill resolved).state } ∧
      ((c.fill resolved).state = none ↔ c.state = none ∧ bindings = []) ∧
      resolved.length = bindings.length ∧
      ∀ (p : Pass) (step : Step) (report : Report), step.bindings = bindings →
        (p.commit step (c.fill resolved) report).tally.bindings =
          p.tally.bindings + resolved.length) := by
  refine ⟨Sources.exists_resolve_error_iff, fun f => Sources.resolve_eq_error_iff, fun hall => ?_⟩
  obtain ⟨resolved, hresolved⟩ : ∃ resolved, s.resolve component bindings = .ok resolved := by
    cases hresolve : s.resolve component bindings with
    | ok resolved => exact ⟨resolved, rfl⟩
    | error f =>
      obtain ⟨b, hb, f', hlacks⟩ := Sources.exists_resolve_error_iff.mp ⟨f, hresolve⟩
      exact absurd hlacks (hall b hb f')
  have htargets : resolved.map Prod.fst = bindings.map Binding.target :=
    Sources.map_fst_of_resolve hresolved
  have hlength : resolved.length = bindings.length := by
    simpa using congrArg length htargets
  refine ⟨resolved, hresolved, Sources.resolve_eq_ok_iff.mp hresolved, ?_, ?_, ?_, ?_, ?_, hlength,
    ?_⟩
  · intro before b after hsplit hlast
    subst hsplit
    obtain ⟨front, v, back, hv, rfl, hback⟩ := Sources.exists_value_of_resolve hresolved
    refine ⟨v, Sources.value_eq_ok_iff_delivers.mp hv, Component.stateValue?_fill ?_⟩
    rw [hback, mem_map]
    rintro ⟨later, hlater, htarget⟩
    exact hlast later hlater htarget
  · intro key hkey
    apply Component.stateValue?_fill_of_not_mem
    rw [htargets, mem_map]
    rintro ⟨b, hb, htarget⟩
    exact hkey b hb htarget
  · rw [Component.stateFields_fill, Dict.keys_insertAll, htargets]
  · rw [Component.fill_eq]
    split <;> rfl
  · have hnil : resolved = [] ↔ bindings = [] := by
      rw [← length_eq_zero_iff, hlength, length_eq_zero_iff]
    rw [Component.fill_eq, ← hnil]
    split
    · next hr => simp [hr]
    · next hr => simp [hr]
  · intro p step report hstep
    rw [hlength, ← hstep, Pass.tally_commit]

/-- Of two bindings for the colour the later one counts. It keeps its place, and the name follows. -/
theorem bindings_fill_state_twice :
    let red := Value.ofString "red"
    let blue := Value.ofString "blue"
    let head := { Component.ofType "head" "plain" with state := some (.ofList [("color", red)]) }
    let s : Sources := ⟨.ofList [("color", blue)], .ofList [("head", head)], ["head"]⟩
    let c := { Component.ofType "list" "plain" with state := some (.ofList [("color", .null)]) }
    let bindings : List Binding := [⟨"color", .component "head", "color", ""⟩,
      ⟨"name", .params, "name", ""⟩, ⟨"color", .params, "color", ""⟩]
    (∀ b ∈ bindings, ∀ f, ¬s.Lacks "list" b f) ∧ ∃ resolved,
      s.resolve "list" bindings = .ok resolved ∧
      (c.fill resolved).stateValue? "color" = some blue ∧
      (c.fill resolved).stateFields.keys = ["color", "name"] := by
  intro red blue head s c bindings
  have hall : ∀ b ∈ bindings, ∀ f, ¬s.Lacks "list" b f := by
    intro b hb
    rw [← Sources.exists_value_iff]
    simp only [bindings, mem_cons, not_mem_nil, or_false] at hb
    rcases hb with rfl | rfl | rfl
    · exact ⟨red, rfl⟩
    · exact ⟨.null, rfl⟩
    · exact ⟨blue, rfl⟩
  obtain ⟨resolved, hresolved, -, hlast, -, hkeys, -⟩ :=
    (bindings_fill_state s "list" bindings c).2.2 hall
  refine ⟨hall, resolved, hresolved, ?_, ?_⟩
  · obtain ⟨v, hv, hfilled⟩ := hlast [_, _] _ [] rfl (by simp)
    obtain rfl : blue = v := by
      have hvalue : s.value "list" _ = .ok v := Sources.value_eq_ok_iff_delivers.mpr hv
      cases hvalue
      rfl
    exact hfilled
  · rw [hkeys]
    decide

end PageRender
