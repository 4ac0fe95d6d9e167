import PageRender.Catalog
import PageRender.Proofs.Audit.Accept

/-!
# What a catalog holds

What a catalog finds for a key and a type, where a scenario has the last of the renderers that are
bound to a type. A catalog is built up by registering scenarios, which an audit must accept, so that
all its default pages can be planned.
-/

namespace PageRender

open List

/-! ### Renderers that are bound one after the other -/

/-- The last of some renderers that is for a type. -/
def Renderer.lastFor? (typeName : String) (renderers : List Renderer) : Option Renderer :=
  renderers.reverse.find? fun r => r.typeName = typeName

namespace Renderer

lemma lastFor?_append (typeName : String) (renderers later : List Renderer) :
    lastFor? typeName (renderers ++ later) =
      (lastFor? typeName later).or (lastFor? typeName renderers) := by
  rw [lastFor?, reverse_append, find?_append]
  rfl

lemma lastFor?_singleton (typeName : String) (r : Renderer) :
    lastFor? typeName [r] = if r.typeName = typeName then some r else none := by
  simp [lastFor?]

end Renderer

namespace Scenario

variable (s : Scenario) (renderers : List Renderer)

lemma key_withRenderers : (renderers.foldl withRenderer s).key = s.key := by
  induction renderers generalizing s with
  | nil => rfl
  | cons r renderers ih => exact ih _

lemma page_withRenderers : (renderers.foldl withRenderer s).page = s.page := by
  induction renderers generalizing s with
  | nil => rfl
  | cons r renderers ih => exact ih _

/-- Of the renderers that are bound to a type the last one counts. -/
lemma renderers_withRenderers (typeName : String) :
    (renderers.foldl withRenderer s).renderers.get? typeName =
      (Renderer.lastFor? typeName renderers).or (s.renderers.get? typeName) := by
  induction renderers generalizing s with
  | nil => rfl
  | cons r renderers ih =>
    rw [foldl_cons, ih, withRenderer, Dict.get?_insert, ← singleton_append,
      Renderer.lastFor?_append, Renderer.lastFor?_singleton, Option.or_assoc]
    by_cases htype : r.typeName = typeName
    · simp [htype]
    · simp [htype, Ne.symm htype]

end Scenario

/-! ### What is found -/

namespace Catalog

variable {catalog : Catalog} {key typeName : String} {scenario : Scenario} {r : Renderer}

lemma scenario_eq_ok_iff :
    catalog.scenario key = .ok scenario ↔ catalog.scenarios.get? key = some scenario := by
  unfold Catalog.scenario
  cases catalog.scenarios.get? key <;> simp

lemma renderer_eq_ok_iff : catalog.renderer key typeName = .ok r ↔
    ∃ scenario, catalog.scenarios.get? key = some scenario ∧
      (scenario.renderers.get? typeName <|> catalog.shared.get? typeName) = some r := by
  simp only [renderer, bind_eq_ok_iff, scenario_eq_ok_iff]
  refine exists_congr fun scenario => and_congr_right fun _ => ?_
  cases (scenario.renderers.get? typeName <|> catalog.shared.get? typeName) <;> simp

/-- In a scenario that is there, only a type may lack a renderer. -/
lemma eq_noRenderer_of_renderer {f : Fault} (hscenario : catalog.scenarios.get? key = some scenario)
    (h : catalog.renderer key typeName = .error f) : f = .noRenderer key typeName := by
  rw [renderer, scenario_eq_ok_iff.mpr hscenario, ok_bind] at h
  split at h
  · cases h
  · cases h
    rfl

lemma register_eq_ok_iff {catalog' : Catalog} : catalog.register scenario = (.ok (), catalog') ↔
    scenario.key ∉ catalog.keys ∧ catalog.audit.accepts scenario.page = true ∧
      catalog' = { catalog with scenarios := catalog.scenarios.insert scenario.key scenario } := by
  rw [register, Catalog.keys, ← Dict.contains_iff]
  split
  · next hkey => simp [hkey]
  · next hkey =>
    cases hcheck : catalog.audit.check scenario.page with
    | ok findings => simp [hkey, (Audit.check_eq_ok_iff.mp hcheck).1, eq_comm]
    | error f =>
      have hrefused : catalog.audit.accepts scenario.page ≠ true := by
        intro haccepts
        rw [Audit.check_eq_ok_iff.mpr ⟨haccepts, rfl⟩] at hcheck
        cases hcheck
      simp [hkey, hrefused]

/-- A scenario that is refused leaves the catalog as it is. -/
lemma register_eq_error_iff {catalog' : Catalog} {fault : Fault} :
    catalog.register scenario = (.error fault, catalog') ↔
      ((scenario.key ∈ catalog.keys ∧
          fault = .invalidPage scenario.key "scenario already registered") ∨
        (scenario.key ∉ catalog.keys ∧ catalog.audit.check scenario.page = .error fault)) ∧
      catalog' = catalog := by
  rw [register, Catalog.keys, ← Dict.contains_iff]
  split
  · next hkey => simp [hkey, eq_comm]
  · next hkey =>
    cases hcheck : catalog.audit.check scenario.page with
    | ok findings => simp [hkey]
    | error f => simp [hkey, eq_comm]

lemma get?_of_register {catalog' : Catalog} (h : catalog.register scenario = (.ok (), catalog')) :
    catalog'.scenarios.get? scenario.key = some scenario := by
  obtain ⟨-, -, rfl⟩ := register_eq_ok_iff.mp h
  rw [Dict.get?_insert, if_pos rfl]

/-- A catalog that has been built up by registering scenarios and by sharing renderers, with any
audits. -/
inductive Built : Catalog → Prop
  | empty : Built {}
  | audited {c : Catalog} (h : Built c) (audit : Audit) : Built { c with audit }
  | registered {c c' : Catalog} {scenario : Scenario} (h : Built c)
      (hc : c.register scenario = (.ok (), c')) : Built c'
  | shared {c : Catalog} (h : Built c) (r : Renderer) : Built (c.share r)

/-- Whatever has been registered has been audited. -/
theorem Built.wellListed (h : catalog.Built)
    (hscenario : catalog.scenarios.get? key = some scenario) :
    scenario.page.WellListed := by
  induction h with
  | empty => cases hscenario
  | audited h audit ih => exact ih hscenario
  | shared h r ih => exact ih hscenario
  | @registered c c' new h hc ih =>
    obtain ⟨-, haccepts, rfl⟩ := register_eq_ok_iff.mp hc
    rw [Dict.get?_insert] at hscenario
    split at hscenario
    · cases hscenario
      exact Audit.wellListed_of_accepts haccepts
    · exact ih hscenario

end Catalog

end PageRender
