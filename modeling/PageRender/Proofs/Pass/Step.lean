import PageRender.Pass.Basic
import PageRender.Proofs.Binding.Resolve
import PageRender.Proofs.Plan.Names

/-!
# What one step does to a pass

A step that is successful adds one report and replaces its own component; any other leaves both the
reports and the components as they were. The report names the component whose copy was rendered, and
the operation of the step.
-/

namespace PageRender

/-- The component that was rendered, and the operation that it got. -/
def Report.item (r : Report) : String × String :=
  (r.component, r.operation)

/-- Work that halts does not go on, but what it has changed stays. -/
lemma run_bind {ε ω α β : Type} (work : ExceptT ε (StateM ω) α) (next : α → ExceptT ε (StateM ω) β)
    (w : ω) : (work >>= next).run.run w = match work.run.run w with
      | (.ok a, w') => (next a).run.run w'
      | (.error e, w') => (.error e, w') := by
  rw [ExceptT.run_bind, StateT.run_bind]
  change (let x := work.run.run w; _) = _
  rcases work.run.run w with ⟨_ | a, w'⟩ <;> rfl

/-- A report names the component that was there before the render. -/
lemma Renderer.item_of_render {r : Renderer} {input : Input} {bench bench' : Bench Component}
    {report : Report} (h : (r.render input).run.run bench = (.ok report, bench')) :
    report.item = (bench.subject.name, input.event.operation) := by
  have hget : (get : Work Component (Bench Component)).run.run bench = (.ok bench, bench) := rfl
  rw [render, run_bind, hget] at h
  change ((r.run input >>= _).run.run bench) = _ at h
  rw [run_bind] at h
  rcases hrun : (r.run input).run.run bench with ⟨_ | outcome, bench₁⟩
  · rw [hrun] at h
    cases h
  · rw [hrun] at h
    cases h
    rfl

namespace Pass

variable {s : Setting} {step : Step} {p p' : Pass} {job : Job} {f : Fault}

/-- A step finds what it needs if its component is there, its bindings have values, and there is a
renderer for its type. -/
lemma jobOf_eq_ok_iff : jobOf s p step = .ok job ↔ ∃ c resolved,
    p.components.get? step.name = some c ∧
    (p.sources s).resolve step.name step.bindings = .ok resolved ∧
    job.component = c.fill resolved ∧ s.catalog.renderer s.scenario c.typeName = .ok job.renderer := by
  simp only [jobOf, copyOf, bind_eq_ok_iff]
  constructor
  · rintro ⟨copy, ⟨resolved, hresolved, hcopy⟩, renderer, hrenderer, hjob⟩
    cases hjob
    split at hcopy
    · next c hc =>
      cases hcopy
      rw [Component.typeName_fill] at hrenderer
      exact ⟨c, resolved, hc, hresolved, rfl, hrenderer⟩
    · cases hcopy
  · rintro ⟨c, resolved, hc, hresolved, hcomponent, hrenderer⟩
    refine ⟨c.fill resolved, ⟨resolved, hresolved, by rw [hc]⟩, job.renderer, ?_, ?_⟩
    · rw [Component.typeName_fill]
      exact hrenderer
    · rw [← hcomponent]
      rfl

lemma startStep_eq_ok_iff :
    p.startStep s step = (.ok job, p') ↔ jobOf s p step = .ok job ∧ p' = p := by
  unfold startStep
  cases jobOf s p step <;> simp [eq_comm]

lemma startStep_eq_error_iff :
    p.startStep s step = (.error f, p') ↔ jobOf s p step = .error f ∧ p' = p.countFailure := by
  unfold startStep
  cases jobOf s p step <;> simp [eq_comm]

/-- Only a binding can make a step fail for lack of a component that has rendered. -/
lemma resolve_of_startStep_notRendered {component dependency : String}
    (h : (p.startStep s step).1 = .error (.notRendered component dependency)) :
    (p.sources s).resolve step.name step.bindings = .error (.notRendered component dependency) := by
  have hjob : jobOf s p step = .error (.notRendered component dependency) :=
    (startStep_eq_error_iff.mp (Prod.ext h rfl)).1
  rcases bind_eq_error_iff.mp hjob with hcopy | ⟨c, -, hrenderer⟩
  · rcases bind_eq_error_iff.mp hcopy with hresolve | ⟨resolved, -, hnone⟩
    · exact hresolve
    · split at hnone <;> cases hnone
  · rcases bind_eq_error_iff.mp hrenderer with hfind | ⟨renderer, -, hpure⟩
    · rcases bind_eq_error_iff.mp hfind with hscenario | ⟨scenario, -, hnone⟩
      · unfold Catalog.scenario at hscenario
        split at hscenario <;> cases hscenario
      · split at hnone <;> cases hnone
    · cases hpure

/-- A step ends well if its render does. Then the copy is put in place. -/
lemma finishStep_eq_ok_iff {u : Unit} : p.finishStep s step job = (.ok u, p') ↔ ∃ report bench,
    (job.renderer.render (input s step)).run.run ⟨job.component, p.blackboard⟩ =
      (.ok report, bench) ∧
    p' = { p with blackboard := bench.blackboard }.commit step bench.subject report := by
  constructor
  · intro h
    unfold finishStep at h
    rcases hrender : (job.renderer.render (input s step)).run.run ⟨job.component, p.blackboard⟩ with
      ⟨_ | report, bench⟩ <;> rw [hrender] at h <;> cases h
    exact ⟨report, bench, rfl, rfl⟩
  · rintro ⟨report, bench, hrender, rfl⟩
    rw [finishStep, hrender]

/-- A step fails if its render halts. Then the failure is counted, and only the blackboard may have
changed. -/
lemma finishStep_eq_error_iff : p.finishStep s step job = (.error f, p') ↔ ∃ halt bench,
    (job.renderer.render (input s step)).run.run ⟨job.component, p.blackboard⟩ =
      (.error halt, bench) ∧
    f = haltFault job.component.name halt ∧
    p' = { p with blackboard := bench.blackboard }.countFailure := by
  constructor
  · intro h
    unfold finishStep at h
    rcases hrender : (job.renderer.render (input s step)).run.run ⟨job.component, p.blackboard⟩ with
      ⟨halt | _, bench⟩ <;> rw [hrender] at h <;> cases h
    exact ⟨halt, bench, rfl, rfl, rfl⟩
  · rintro ⟨halt, bench, hrender, rfl, rfl⟩
    rw [finishStep, hrender]

lemma startStep_eq_ok (h : p.startStep s step = (.ok job, p')) :
    p' = p ∧ ∃ c, p.components.get? step.name = some c ∧ job.component.name = c.name := by
  obtain ⟨hjob, rfl⟩ := startStep_eq_ok_iff.mp h
  obtain ⟨c, resolved, hc, -, hcomponent, -⟩ := jobOf_eq_ok_iff.mp hjob
  refine ⟨rfl, c, hc, ?_⟩
  rw [hcomponent, Component.name_fill]

end Pass

end PageRender
