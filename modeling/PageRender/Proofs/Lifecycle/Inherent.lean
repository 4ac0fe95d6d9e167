import PageRender.Kind.Plain
import PageRender.Proofs.Catalog
import PageRender.Proofs.Lifecycle.Success

/-!
# What a render leaves of a component

Whatever an operation does, it works on the model and on the blackboard. The component itself is
written to in two places only, when the model is encoded and when the kind finishes up. So a part
that no container holds, such as the name or the type, stays as it is unless one of these two
changes it.
-/

namespace PageRender

/-- A successful render leaves a part of the component as it is. -/
def Renderer.Keeps {α : Type} (r : Renderer) (part : Component → α) : Prop :=
  ∀ {input bench outcome bench'}, (r.run input).run.run bench = (.ok outcome, bench') →
    part bench'.subject = part bench.subject

/-- Neither encoding nor finishing up changes a part of the component. -/
structure Kind.Keeps {α M : Type} (kind : Kind M) (part : Component → α) : Prop where
  encode : ∀ {model c c'}, (kind.encode model).run.run c = (.ok (), c') → part c' = part c
  finish : ∀ {context bench bench'}, (kind.finish context).run.run bench = (.ok (), bench') →
    part bench'.subject = part bench.subject

namespace Component

variable {α : Type} {part : Component → α}

lemma Inherent.flattened (h : Inherent part) {M : Type} (kind : Kind M) (c : Component) :
    part (kind.flattened c) = part c := by
  unfold Kind.flattened
  split
  · rw [h.modifyProps, h.modifyData]
  · rfl

lemma Inherent.write (h : Inherent part) (m : Containers) (c : Component) :
    part (m.write c) = part c := by
  change part (((c.modifyProps fun _ => m.props).modifyData fun _ => m.data).modifyState
    fun _ => m.state) = _
  rw [h.modifyState, h.modifyData, h.modifyProps]

end Component

/-- A render changes the name or the type of a component only in the hooks that write to it. -/
theorem Kind.Keeps.renderer {α M : Type} {kind : Kind M} {part : Component → α}
    (h : kind.Keeps part) (hpart : Component.Inherent part) : kind.renderer.Keeps part := by
  intro input bench outcome bench' hrun
  obtain ⟨model, board, modelBench, c, componentBench, -, -, -, hencode, hfinish, -, rfl⟩ :=
    Kind.run_renderer_eq_ok_iff.mp hrun
  calc part (componentBench.subject.setVisible outcome.visible)
    _ = part componentBench.subject := hpart.modifyFlags _ _
    _ = part (kind.flattened c) := h.finish hfinish
    _ = part c := hpart.flattened kind c
    _ = part bench.subject.normalize := h.encode hencode
    _ = part bench.subject := hpart.normalize _

lemma Renderer.Keeps.render {α : Type} {r : Renderer} {part : Component → α} (h : r.Keeps part)
    {input : Input} {bench bench' : Bench Component} {report : Report}
    (hrender : (r.render input).run.run bench = (.ok report, bench')) :
    part bench'.subject = part bench.subject := by
  obtain ⟨outcome, hrun, -⟩ := Renderer.render_eq_ok_iff.mp hrender
  exact h hrun

/-! ### Catalogs -/

namespace Catalog

variable {α : Type} {part : Component → α} {catalog : Catalog} {key : String}

/-- What renders the components of a scenario leaves a part of them as it is. -/
def Keeps (catalog : Catalog) (key : String) (part : Component → α) : Prop :=
  ∀ {typeName r}, catalog.renderer key typeName = .ok r → r.Keeps part

/-- Where there is no shared renderer, the scenario's own ones count. -/
lemma keeps_of_renderers (hshared : catalog.shared = .empty)
    (h : ∀ scenario, catalog.scenarios.get? key = some scenario →
      ∀ typeName r, scenario.renderers.get? typeName = some r → r.Keeps part) :
    catalog.Keeps key part := by
  intro typeName r hr
  obtain ⟨scenario, hscenario, hrenderer⟩ := renderer_eq_ok_iff.mp hr
  rw [hshared, Dict.get?_empty] at hrenderer
  exact h scenario hscenario typeName r (by simpa using hrenderer)

end Catalog

end PageRender
