import PageRender.Binding.Resolve
import PageRender.Proofs.Except

/-!
# What bindings resolve to

The values of bindings depend on the states of the components that they name, and on nothing else.
Where a state is there and has the key, its value is found; once it has been found, it is found
again wherever that state is still there. Of several bindings of a target the last one counts. Values
are filled into the state of a component; its name and its type are not touched.
-/

namespace PageRender

open List

variable {s s' : Sources} {component : String} {b : Binding} {bindings : List Binding}
  {resolved : List (String × Value)}

/-- What has rendered for the one has rendered for the other, with the same state. -/
structure Sources.Extends (s s' : Sources) : Prop where
  params : s'.params = s.params
  state : ∀ {name fields}, s.state? name = some fields → s'.state? name = some fields

namespace Sources

lemma state?_eq_some_iff {name : String} {fields : Fields} : s.state? name = some fields ↔
    name ∈ s.rendered ∧ ∃ c, s.components.get? name = some c ∧ c.stateFields = fields := by
  by_cases h : name ∈ s.rendered <;> simp [state?, h]

lemma value_of_params (h : b.source = .params) :
    s.value component b = .ok ((s.params.get? b.key).getD .null) := by
  simp [value, h]

lemma value_of_component_eq_ok_iff {name : String} {v : Value} (h : b.source = .component name) :
    s.value component b = .ok v ↔
      ∃ fields, s.state? name = some fields ∧ fields.get? b.key = some v := by
  simp only [value, h]
  cases s.state? name with
  | none => simp
  | some fields => cases hv : fields.get? b.key <;> simp [hv]

/-- Only a component that has not rendered is reported as such. -/
lemma value_ne_notRendered (h : ∀ name, b.source = .component name → ∃ fields,
    s.state? name = some fields) (c dependency : String) :
    s.value component b ≠ .error (.notRendered c dependency) := by
  intro hv
  unfold value at hv
  split at hv
  · cases hv
  · next name hname =>
    obtain ⟨fields, hfields⟩ := h name hname
    rw [hfields] at hv
    cases hkey : fields.get? b.key <;> simp [hkey] at hv

/-- A binding has no value if the component that it reads has not rendered, or lacks the key. -/
lemma exists_of_value_eq_error {f : Fault} (h : s.value component b = .error f) :
    ∃ name, b.source = .component name ∧
      (f = .notRendered component name ∨ f = .noState name b.key) := by
  unfold value at h
  split at h
  · cases h
  · next name hname =>
    refine ⟨name, hname, ?_⟩
    split at h
    · cases h
      exact Or.inl rfl
    · split at h
      · cases h
        exact Or.inr rfl
      · cases h

lemma value_congr (hparams : s.params = s'.params)
    (h : ∀ name, b.source = .component name → s.state? name = s'.state? name) :
    s.value component b = s'.value component b := by
  unfold value
  split
  · rw [hparams]
  · next name hname => rw [h name hname]

lemma resolve_cons : s.resolve component (b :: bindings) =
    s.value component b >>= fun v => s.resolve component bindings >>= fun rest =>
      pure ((b.target, v) :: rest) := by
  rw [resolve, mapM_cons, resolve]
  cases s.value component b <;> rfl

lemma resolve_cons_eq_ok_iff : s.resolve component (b :: bindings) = .ok resolved ↔
    ∃ v rest, s.value component b = .ok v ∧ s.resolve component bindings = .ok rest ∧
      resolved = (b.target, v) :: rest := by
  rw [resolve_cons, bind_eq_ok_iff]
  constructor
  · rintro ⟨v, hv, h⟩
    obtain ⟨rest, hrest, h⟩ := bind_eq_ok_iff.mp h
    cases h
    exact ⟨v, rest, hv, hrest, rfl⟩
  · rintro ⟨v, rest, hv, hrest, rfl⟩
    exact ⟨v, hv, bind_eq_ok_iff.mpr ⟨rest, hrest, rfl⟩⟩

/-- A fault of resolving bindings is one of them. -/
lemma exists_of_resolve_eq_error {f : Fault} (h : s.resolve component bindings = .error f) :
    ∃ b ∈ bindings, s.value component b = .error f := by
  obtain ⟨b, hb, hvalue⟩ := exists_of_mapM_eq_error h
  exact ⟨b, hb, map_eq_error_iff.mp hvalue⟩

lemma resolve_congr (h : ∀ b ∈ bindings, s.value component b = s'.value component b) :
    s.resolve component bindings = s'.resolve component bindings := by
  induction bindings with
  | nil => rfl
  | cons b bindings ih =>
    rw [resolve_cons, resolve_cons, h b mem_cons_self, ih fun b' hb' => h b' (mem_cons_of_mem b hb')]

lemma Extends.value (h : s.Extends s') {v : Value} (hv : s.value component b = .ok v) :
    s'.value component b = .ok v := by
  cases hb : b.source with
  | params =>
    rw [value_of_params hb] at hv ⊢
    rw [h.params]
    exact hv
  | component name =>
    rw [value_of_component_eq_ok_iff hb] at hv ⊢
    obtain ⟨fields, hfields, hkey⟩ := hv
    exact ⟨fields, h.state hfields, hkey⟩

/-- What has been resolved stays resolved. -/
lemma Extends.resolve (h : s.Extends s') (hr : s.resolve component bindings = .ok resolved) :
    s'.resolve component bindings = .ok resolved := by
  induction bindings generalizing resolved with
  | nil => exact hr
  | cons b bindings ih =>
    rw [resolve_cons_eq_ok_iff] at hr ⊢
    obtain ⟨v, rest, hv, hrest, rfl⟩ := hr
    exact ⟨v, rest, h.value hv, ih hrest, rfl⟩

/-- The values come in the order of the bindings. -/
lemma map_fst_of_resolve (h : s.resolve component bindings = .ok resolved) :
    resolved.map Prod.fst = bindings.map Binding.target := by
  refine map_eq_of_mapM (fun b entry hentry => ?_) h
  obtain ⟨v, -, rfl⟩ := map_eq_ok_iff.mp hentry
  rfl

/-- A binding that is resolved gives its target a value, between those of the bindings before it and
after it. -/
lemma exists_value_of_resolve {before after : List Binding}
    (h : s.resolve component (before ++ b :: after) = .ok resolved) :
    ∃ front v back, s.value component b = .ok v ∧ resolved = front ++ (b.target, v) :: back ∧
      back.map Prod.fst = after.map Binding.target := by
  induction before generalizing resolved with
  | nil =>
    obtain ⟨v, rest, hv, hrest, rfl⟩ := resolve_cons_eq_ok_iff.mp h
    exact ⟨[], v, rest, hv, rfl, map_fst_of_resolve hrest⟩
  | cons b' before ih =>
    obtain ⟨v', rest, -, hrest, rfl⟩ := resolve_cons_eq_ok_iff.mp h
    obtain ⟨front, v, back, hv, rfl, hback⟩ := ih hrest
    exact ⟨(b'.target, v') :: front, v, back, hv, rfl, hback⟩

end Sources

/-! ### Filling in values -/

namespace Component

variable {α : Type} {part : Component → α} {c : Component} {key : String} {v : Value}

/-- A part of a component that is in none of its containers, and not among its flags. -/
structure Inherent {α : Type} (part : Component → α) : Prop where
  normalize : ∀ c, part c.normalize = part c
  modifyProps : ∀ c f, part (c.modifyProps f) = part c
  modifyData : ∀ c f, part (c.modifyData f) = part c
  modifyState : ∀ c f, part (c.modifyState f) = part c
  modifyFlags : ∀ c f, part (c.modifyFlags f) = part c

lemma inherent_name : Inherent name where
  normalize _ := rfl
  modifyProps _ _ := rfl
  modifyData _ _ := rfl
  modifyState _ _ := rfl
  modifyFlags _ _ := rfl

lemma inherent_typeName : Inherent typeName where
  normalize _ := rfl
  modifyProps _ _ := rfl
  modifyData _ _ := rfl
  modifyState _ _ := rfl
  modifyFlags _ _ := rfl

lemma Inherent.fill (h : Inherent part) (c : Component) (resolved : List (String × Value)) :
    part (c.fill resolved) = part c := by
  unfold Component.fill
  induction resolved generalizing c with
  | nil => rfl
  | cons entry rest ih =>
    rw [List.foldl_cons, ih]
    exact h.modifyState c _

@[simp] lemma typeName_fill : (c.fill resolved).typeName = c.typeName :=
  inherent_typeName.fill c resolved

@[simp] lemma name_fill : (c.fill resolved).name = c.name :=
  inherent_name.fill c resolved

lemma stateValue?_setState (other : String) : (c.setState key v).stateValue? other =
    if other = key then some v else c.stateValue? other := by
  cases hc : c.state <;>
    simp [setState, modifyState, stateValue?, stateFields, hc, Dict.get?_insert]

lemma get?_stateFields (c : Component) (key : String) :
    c.stateFields.get? key = c.stateValue? key := by
  cases hc : c.state <;> simp [stateFields, stateValue?, hc]

lemma stateValue?_fill_of_not_mem (h : key ∉ resolved.map Prod.fst) :
    (c.fill resolved).stateValue? key = c.stateValue? key := by
  unfold fill
  induction resolved generalizing c with
  | nil => rfl
  | cons entry rest ih =>
    rw [map_cons, mem_cons, not_or] at h
    rw [foldl_cons, ih h.2, stateValue?_setState, if_neg h.1]

/-- Of the values for a key the last one is there in the end. -/
lemma stateValue?_fill {front back : List (String × Value)} (h : key ∉ back.map Prod.fst) :
    (c.fill (front ++ (key, v) :: back)).stateValue? key = some v := by
  have hsplit : c.fill (front ++ (key, v) :: back) = ((c.fill front).setState key v).fill back := by
    simp [fill, foldl_append]
  rw [hsplit, stateValue?_fill_of_not_mem h, stateValue?_setState, if_pos rfl]

end Component

end PageRender
