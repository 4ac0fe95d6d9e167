import PageRender.Proofs.Service.Frame

/-!
# What nodes look up

The components of a pass and their renderers are checked once, when the pass is prepared. A node
looks them up later, while others are writing to the components. It finds them all the same: no
component is ever taken away, and none changes its type if the hooks that write to components leave
the type alone. What can go wrong with a node is that a binding has no value, or that its render
halts.
-/

namespace PageRender

open List

/-- A fault of a binding of a step. -/
def Step.BindingFault (step : Step) (f : Fault) : Prop :=
  ∃ b ∈ step.bindings, ∃ name, b.source = .component name ∧
    (f = .notRendered step.name name ∨ f = .noState name b.key)

namespace Pass

variable {s : Setting} {step : Step} {p : Pass} {f : Fault} {c : Component} {r : Renderer}

/-- A fault of a render of a component, with values filled in. -/
def RenderFault (s : Setting) (step : Step) (c : Component) (f : Fault) : Prop :=
  ∃ resolved r board halt bench, s.catalog.renderer s.scenario c.typeName = .ok r ∧
    (r.render (input s step)).run.run ⟨c.fill resolved, board⟩ = (.error halt, bench) ∧
    f = haltFault c.name halt

/-- If its component is there, and a renderer for it, then only a binding can keep a step from
starting. -/
lemma bindingFault_of_jobOf (hc : p.components.get? step.name = some c)
    (hr : s.catalog.renderer s.scenario c.typeName = .ok r) (h : jobOf s p step = .error f) :
    step.BindingFault f := by
  rcases bind_eq_error_iff.mp h with hcopy | ⟨copy, hcopy, hrenderer⟩
  · rcases bind_eq_error_iff.mp hcopy with hresolve | ⟨resolved, -, hnone⟩
    · obtain ⟨b, hb, hvalue⟩ := Sources.exists_of_resolve_eq_error hresolve
      obtain ⟨name, hname, hf⟩ := Sources.exists_of_value_eq_error hvalue
      exact ⟨b, hb, name, hname, hf⟩
    · rw [hc] at hnone
      cases hnone
  · obtain ⟨resolved, -, hfill⟩ := bind_eq_ok_iff.mp hcopy
    rw [hc] at hfill
    cases hfill
    rw [Component.typeName_fill, hr] at hrenderer
    cases hrenderer

end Pass

namespace Service

variable {s : Service} {request : Request} {prepared : Prepared} {ready : Ready}
  {log es : List LogEntry} {d d' : Dispatch Pass Pass.Job} {moves : List Move} {root i : Nat}
  {step : Step} {f : Fault}

section

variable (hprepared : s.prepare request = .ok prepared) (hready : s.ready request = .ok ready)

include hprepared hready

lemma components_of_ready : ready.pass.components = prepared.live.components := by
  obtain ⟨prepared', hprepared', -, -, hcomponents, -⟩ := ready_eq_ok hready
  obtain rfl : prepared = prepared' := Except.ok.inj (hprepared.symm.trans hprepared')
  exact hcomponents

lemma mem_steps_of_step (hstep : ready.tree.step? i = some step) : step ∈ prepared.plan.steps := by
  rw [RenderTree.step?_build (build_of_ready hready hprepared)] at hstep
  exact mem_of_getElem? hstep

variable (hroot : ready.tree.root? = some root)
  (hcourse : Dispatch.Course (s.runner request ready.tree) root ready.pass moves log d)

include hroot hcourse

/-- At any time of a pass a planned component is there, with the type that was checked. -/
lemma exists_looked_up (hkeeps : s.catalog.Keeps request.scenario Component.typeName)
    (hstep : step ∈ prepared.plan.steps) : ∃ checked c r,
      prepared.live.component? step.name = some checked ∧
      d.world.components.get? step.name = some c ∧ c.typeName = checked.typeName ∧
      s.catalog.renderer request.scenario c.typeName = .ok r := by
  obtain ⟨scenario, -, -, -, hchecked⟩ := completes_of_prepare hprepared
  obtain ⟨checked, r, hc, hr⟩ := hchecked step hstep
  have htype := (beginning_of_ready hready hroot).part_of_course Component.inherent_typeName hkeeps
    hcourse step.name
  have hstart : ready.pass.components.get? step.name = some checked := by
    rw [components_of_ready hprepared hready]
    exact hc
  rw [hstart, Option.map_some, Option.map_eq_some_iff] at htype
  obtain ⟨c, hstored, hsame⟩ := htype
  refine ⟨checked, c, r, hc, hstored, hsame, ?_⟩
  rw [hsame]
  exact hr

/-- Every fault of a node is one of a binding, or of the render of its component. -/
lemma fault_of_failed (hkeeps : s.catalog.Keeps request.scenario Component.typeName)
    (hf : .failed i f ∈ log) : ∃ step checked, ready.tree.step? i = some step ∧
      prepared.live.component? step.name = some checked ∧
      (step.BindingFault f ∨ Pass.RenderFault (s.setting request) step checked f) := by
  have hb := beginning_of_ready hready hroot
  revert i f
  refine course_induction (P := fun log _ => ∀ {i f}, .failed i f ∈ log →
    ∃ step checked, ready.tree.step? i = some step ∧
      prepared.live.component? step.name = some checked ∧
      (step.BindingFault f ∨ Pass.RenderFault (s.setting request) step checked f)) hb.rooted
    hb.root?_eq (fun hf => by simp at hf) ?_ hcourse
  intro moves log d m es d' hcourse hcoherent hrule heffect ih i f hf
  rcases mem_append.mp hf with hold | hnew
  · exact ih hold
  · generalize d'.world = world at heffect
    cases heffect with
    | quiet es hes => cases (hes _ hnew).2
    | rendered j step job report bench next hphase hstep hrender => simp at hnew
    | refused j step g hphase hstep hjob =>
      obtain ⟨rfl, rfl⟩ : i = j ∧ f = g := by simpa using hnew
      obtain ⟨checked, c, r, hchecked, hc, -, hr⟩ := exists_looked_up hprepared hready hroot hcourse
        hkeeps (mem_steps_of_step hprepared hready hstep)
      exact ⟨step, checked, hstep, hchecked, Or.inl (Pass.bindingFault_of_jobOf hc hr hjob)⟩
    | broken j step job halt bench hphase hstep hrender =>
      obtain ⟨rfl, rfl⟩ : i = j ∧ f = Pass.haltFault job.component.name halt := by simpa using hnew
      obtain ⟨c, resolved, hc, -, hcomponent, hr⟩ := hb.finds_of_running hcourse hphase hstep
      rw [components_of_ready hprepared hready] at hc
      rw [hcomponent] at hrender ⊢
      rw [Component.name_fill]
      exact ⟨step, c, hstep, hc,
        Or.inr ⟨resolved, job.renderer, _, halt, bench, hr, hrender, rfl⟩⟩

end

/-- Once a pass has been prepared, its nodes find what they look up, in every order of the renders and
whatever their operations do: at any time the component of a node is there, with the type that was
checked, and so is a renderer for this type. A node can be kept from starting by one of its bindings
only; and all faults that are recorded are those of bindings, or of renders that have halted. -/
theorem lookups_succeed (hprepared : s.prepare request = .ok prepared)
    (hready : s.ready request = .ok ready) (hroot : ready.tree.root? = some root)
    (hcourse : Dispatch.Course (s.runner request ready.tree) root ready.pass moves log d)
    (hkeeps : s.catalog.Keeps request.scenario Component.typeName) :
    (∀ i, .dispatched i ∈ log → ∃ step checked c r, ready.tree.step? i = some step ∧
      prepared.live.component? step.name = some checked ∧
      d.world.components.get? step.name = some c ∧ c.typeName = checked.typeName ∧
      s.catalog.renderer request.scenario c.typeName = .ok r ∧
      ∀ f, (d.world.startStep (s.setting request) step).1 = .error f → step.BindingFault f) ∧
    ∀ i f, .failed i f ∈ log → ∃ step checked, ready.tree.step? i = some step ∧
      prepared.live.component? step.name = some checked ∧
      (step.BindingFault f ∨ Pass.RenderFault (s.setting request) step checked f) := by
  refine ⟨?_, fun i f => fault_of_failed hprepared hready hroot hcourse hkeeps⟩
  intro i hi
  have hsize := ((beginning_of_ready hready hroot).coherent hcourse).lt_size_of_dispatched hi
  obtain ⟨node, hnode⟩ := RenderTree.exists_node hsize
  have hstep := RenderTree.step?_of_node hnode
  obtain ⟨checked, c, r, hchecked, hc, htype, hr⟩ := exists_looked_up hprepared hready hroot hcourse
    hkeeps (mem_steps_of_step hprepared hready hstep)
  refine ⟨node.step, checked, c, r, hstep, hchecked, hc, htype, hr, ?_⟩
  intro f hf
  exact Pass.bindingFault_of_jobOf hc hr (Pass.startStep_eq_error_iff.mp (Prod.ext hf rfl)).1

/-- The list of the colours finds its component once the head has rendered, and a renderer for it. -/
theorem lookups_succeed_list :
    ∃ ready log d step c r, Service.colors.ready .colors = .ok ready ∧
      Dispatch.Course (Service.colors.runner .colors ready.tree) 0 ready.pass [.start 0, .settle 0]
        log d ∧
      .dispatched 1 ∈ log ∧ ready.tree.step? 1 = some step ∧
      d.world.components.get? step.name = some c ∧
      Service.colors.catalog.renderer "colors" c.typeName = .ok r ∧
      ∀ f, (d.world.startStep (Service.colors.setting .colors) step).1 = .error f →
        step.BindingFault f := by
  obtain ⟨ready, hready, hroot, -⟩ := exists_ready_colors
  obtain ⟨prepared, hprepared, -⟩ := exists_prepared_of_ready hready
  have hreplay := of_any_toOption hready (P := fun ready =>
    let r := Service.colors.runner .colors ready.tree
    ((Dispatch.initial r 0 ready.pass).replay r [.start 0, .settle 0]).any (·.isQueued 1))
    (by decide +kernel)
  obtain ⟨d, hd, hqueued⟩ := (Option.any_eq_true _ _).mp hreplay
  obtain ⟨log, hcourse⟩ := Dispatch.exists_course_of_replay hd
  have hdispatched : .dispatched 1 ∈ log :=
    ((beginning_of_ready hready hroot).coherent hcourse).dispatched_of_phase
      (Dispatch.isQueued_iff.mp hqueued) nofun
  obtain ⟨hfound, -⟩ := lookups_succeed hprepared hready hroot hcourse
    (keeps_colors Component.inherent_typeName)
  obtain ⟨step, checked, c, r, hstep, -, hc, -, hr, hfault⟩ := hfound 1 hdispatched
  exact ⟨ready, log, d, step, c, r, hready, hcourse, hdispatched, hstep, hc, hr, hfault⟩

end Service

end PageRender
