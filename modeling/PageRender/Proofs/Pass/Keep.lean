import PageRender.Proofs.Pass.Atomic

/-!
# What a pass keeps

While a pass goes on, no component is rendered a second time, so that those which have rendered stay
as they are. A step whose bindings have been resolved would therefore find the same later on.
-/

namespace PageRender

open List

namespace Pass

variable {s : Setting} {step : Step} {start p q : Pass} {job job' : Job}

/-- What has rendered in one pass is there in another, with the same state, and so is what has been
reported. -/
structure Keeps (p q : Pass) : Prop where
  rendered : ∀ {name}, name ∈ p.rendered → name ∈ q.rendered
  component : ∀ {name}, name ∈ p.rendered → q.components.get? name = p.components.get? name
  reports : p.reports <+: q.reports

namespace Keeps

lemma refl (p : Pass) : p.Keeps p :=
  ⟨id, fun _ => rfl, prefix_rfl⟩

lemma trans {r : Pass} (h : p.Keeps q) (h' : q.Keeps r) : p.Keeps r where
  rendered hname := h'.rendered (h.rendered hname)
  component hname := (h'.component (h.rendered hname)).trans (h.component hname)
  reports := h.reports.trans h'.reports

lemma sources (h : p.Keeps q) : (p.sources s).Extends (q.sources s) := by
  refine ⟨rfl, ?_⟩
  intro name fields hfields
  obtain ⟨hname, c, hc, hstate⟩ := Sources.state?_eq_some_iff.mp hfields
  refine Sources.state?_eq_some_iff.mpr ⟨h.rendered hname, c, ?_, hstate⟩
  exact (h.component hname).trans hc

end Keeps

lemma Failed.keeps (h : p.Failed q) : p.Keeps q where
  rendered hname := by rwa [h.rendered]
  component _ := by rw [h.components]
  reports := h.reports ▸ prefix_rfl

/-- A component that has not rendered can be replaced. -/
lemma Committed.keeps {c : Component} {report : Report} (h : Committed step c report p q)
    (hname : step.name ∉ p.rendered) : p.Keeps q where
  rendered hmem := h.rendered.mpr (Or.inl hmem)
  component {name} hmem := by
    apply h.others
    rintro rfl
    exact hname hmem
  reports := by
    rw [h.reports]
    exact prefix_append _ _

/-- What a step needs, with its component as one pass has it, and with its bindings resolved in
another. -/
def Finds (s : Setting) (start p : Pass) (step : Step) (job : Job) : Prop :=
  ∃ c resolved, start.components.get? step.name = some c ∧
    (p.sources s).resolve step.name step.bindings = .ok resolved ∧
    job.component = c.fill resolved ∧ s.catalog.renderer s.scenario c.typeName = .ok job.renderer

lemma jobOf_eq_ok_iff_finds (h : p.components.get? step.name = start.components.get? step.name) :
    jobOf s p step = .ok job ↔ Finds s start p step job := by
  rw [jobOf_eq_ok_iff, h]
  rfl

lemma Finds.keeps (h : Finds s start p step job) (hkeeps : p.Keeps q) :
    Finds s start q step job := by
  obtain ⟨c, resolved, hc, hresolved, hcomponent, hrenderer⟩ := h
  exact ⟨c, resolved, hc, hkeeps.sources.resolve hresolved, hcomponent, hrenderer⟩

/-- What is found depends on the states that the bindings name. -/
lemma Finds.congr (h : Finds s start p step job)
    (hstate : ∀ b ∈ step.bindings, ∀ name, b.source = .component name →
      (p.sources s).state? name = (q.sources s).state? name) : Finds s start q step job := by
  obtain ⟨c, resolved, hc, hresolved, hcomponent, hrenderer⟩ := h
  refine ⟨c, resolved, hc, ?_, hcomponent, hrenderer⟩
  have hvalues : ∀ b ∈ step.bindings,
      (p.sources s).value step.name b = (q.sources s).value step.name b := by
    intro b hb
    exact Sources.value_congr rfl (hstate b hb)
  rw [← Sources.resolve_congr hvalues]
  exact hresolved

lemma Finds.unique (h : Finds s start p step job) (h' : Finds s start p step job') :
    job = job' := by
  obtain ⟨c, resolved, hc, hresolved, hcomponent, hrenderer⟩ := h
  obtain ⟨c', resolved', hc', hresolved', hcomponent', hrenderer'⟩ := h'
  obtain rfl : c = c' := Option.some.inj (hc.symm.trans hc')
  obtain rfl : resolved = resolved' := Except.ok.inj (hresolved.symm.trans hresolved')
  have hcomponents : job.component = job'.component := hcomponent.trans hcomponent'.symm
  have hrenderers : job.renderer = job'.renderer := Except.ok.inj (hrenderer.symm.trans hrenderer')
  exact congrArg₂ Job.mk hcomponents hrenderers

end Pass

end PageRender
