import PageRender.Proofs.Lifecycle.Success

/-!
# Steps take effect as a whole or not at all

The hooks of a kind may have changed much when one of them halts, but all of it in the copy that is
rendered. The pass takes over the copy of a render that was successful, and otherwise counts a
failure. Only what was written on the blackboard is there in any case.
-/

namespace PageRender

open List

namespace Pass

variable {s : Setting} {step : Step} {p q : Pass} {c c' : Component} {report : Report}
  {board : Blackboard}

/-- A step has failed, and a pass is as it was but for the blackboard and the count of failures. -/
structure Failed (p q : Pass) : Prop where
  components : q.components = p.components
  rendered : q.rendered = p.rendered
  reports : q.reports = p.reports
  tally : q.tally = { p.tally with failed := p.tally.failed + 1 }

/-- A step has put a component in its place, and nothing else has changed in a pass but the
blackboard and the accounts. -/
structure Committed (step : Step) (c : Component) (report : Report) (p q : Pass) : Prop where
  keys : q.components.keys = p.components.keys
  component : q.components.get? step.name = some c
  others : ∀ {name}, name ≠ step.name → q.components.get? name = p.components.get? name
  rendered : ∀ {name}, name ∈ q.rendered ↔ name ∈ p.rendered ∨ name = step.name
  reports : q.reports = p.reports ++ [report]
  tally : q.tally = { p.tally with
    bindings := p.tally.bindings + step.bindings.length
    rendered := p.tally.rendered + if report.visible then 1 else 0
    skipped := p.tally.skipped + if report.visible then 0 else 1 }

/-- A renderer has made one component of another, whose bindings had been filled in, without a
halt. -/
def Makes (s : Setting) (step : Step) (r : Renderer) (c c' : Component) (report : Report) : Prop :=
  ∃ resolved board board', resolved.map Prod.fst = step.bindings.map Binding.target ∧
    s.catalog.renderer s.scenario c.typeName = .ok r ∧
    (r.render (input s step)).run.run ⟨c.fill resolved, board⟩ = (.ok report, ⟨c', board'⟩)

lemma failed_countFailure : p.Failed ({ p with blackboard := board }.countFailure) :=
  ⟨rfl, rfl, rfl, rfl⟩

lemma tally_commit (p : Pass) (step : Step) (c : Component) (report : Report) :
    (p.commit step c report).tally = { p.tally with
      bindings := p.tally.bindings + step.bindings.length
      rendered := p.tally.rendered + if report.visible then 1 else 0
      skipped := p.tally.skipped + if report.visible then 0 else 1 } := by
  rw [commit, Tally.countRender, Tally.countBindings]
  cases report.visible <;> rfl

lemma committed_commit (h : step.name ∈ p.components.keys) :
    Committed step c report p ({ p with blackboard := board }.commit step c report) where
  keys := by rw [commit, Dict.keys_insert, if_pos h]
  component := by rw [commit, Dict.get?_insert, if_pos rfl]
  others hname := by rw [commit, Dict.get?_insert, if_neg hname]
  rendered := by
    intro name
    by_cases hstep : step.name ∈ p.rendered
    · simp only [commit, if_pos hstep]
      refine (or_iff_left_of_imp ?_).symm
      rintro rfl
      exact hstep
    · simp [commit, if_neg hstep]
  reports := rfl
  tally := tally_commit _ step c report

/-- A component that a kind's renderer has made has gone through all stages. -/
lemma Makes.trace_eq {M : Type} {kind : Kind M} (h : Makes s step kind.renderer c c' report) :
    report.trace = ⟨[.decoded, .ofVisible report.visible, .encoded, .finalized]⟩ := by
  obtain ⟨resolved, board, board', -, -, hrender⟩ := h
  obtain ⟨outcome, hrun, rfl⟩ := Renderer.render_eq_ok_iff.mp hrender
  obtain ⟨_, _, _, _, _, -, -, -, -, -, htrace, -⟩ := Kind.run_renderer_eq_ok_iff.mp hrun
  exact htrace

/-- A step that is run from its start to its end. -/
lemma runStep_eq_error {f : Fault} (h : p.runStep s step = (.error f, q)) : p.Failed q := by
  unfold runStep at h
  rcases hstart : p.startStep s step with ⟨g | job, p'⟩ <;> rw [hstart] at h
  · cases h
    obtain ⟨-, rfl⟩ := startStep_eq_error_iff.mp hstart
    exact failed_countFailure
  · obtain ⟨-, rfl⟩ := startStep_eq_ok_iff.mp hstart
    obtain ⟨halt, bench, -, -, rfl⟩ := finishStep_eq_error_iff.mp h
    exact failed_countFailure

lemma runStep_eq_ok {u : Unit} (h : p.runStep s step = (.ok u, q)) : ∃ r c c' report,
    p.components.get? step.name = some c ∧ Makes s step r c c' report ∧
      Committed step c' report p q := by
  unfold runStep at h
  rcases hstart : p.startStep s step with ⟨g | job, p'⟩ <;> rw [hstart] at h
  · cases h
  · obtain ⟨hjob, rfl⟩ := startStep_eq_ok_iff.mp hstart
    obtain ⟨c, resolved, hc, hresolved, hcomponent, hrenderer⟩ := jobOf_eq_ok_iff.mp hjob
    obtain ⟨report, bench, hrender, rfl⟩ := finishStep_eq_ok_iff.mp h
    rw [hcomponent] at hrender
    exact ⟨job.renderer, c, bench.subject, report, hc,
      ⟨resolved, _, _, Sources.map_fst_of_resolve hresolved, hrenderer, hrender⟩,
      committed_commit (Dict.mem_keys_of_get? hc)⟩

end Pass

end PageRender
