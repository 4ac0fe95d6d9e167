import PageRender.Proofs.Service.Dependencies

/-!
# What bindings deliver

A binding is resolved in the middle of a pass. Since a component renders at most once, and nothing
reads it before that, the value that it delivers is the one that stands in the page when the pass
is over.
-/

namespace PageRender

open List

/-- In the course of moves the renderer of a node is handed the component of a job, and comes back
with a report. -/
def Renders (r : Runner Pass Pass.Job) (start : Pass) (moves : List Move) (i : Nat) (job : Pass.Job)
    (report : Report) : Prop :=
  ∃ d d', Dispatch.Through r start moves (.settle i) d d' ∧ d.phase? i = some (.running job) ∧
    d'.world.reports = d.world.reports ++ [report]

namespace Service

variable {s : Service} {request : Request} {t : RenderTree} {start : Pass} {moves : List Move}
  {log : List LogEntry} {d : Dispatch Pass Pass.Job} {root i : Nat} {job : Pass.Job}
  {report : Report} {step : Step} {before after : List Binding} {b : Binding}

lemma renders_append {r : Runner Pass Pass.Job} (h : Renders r start moves i job report)
    (rest : List Move) : Renders r start (moves ++ rest) i job report := by
  obtain ⟨d, d', hthrough, hrest⟩ := h
  exact ⟨d, d', hthrough.append rest, hrest⟩

/-- A node that has succeeded has rendered. -/
lemma exists_renders (ht : t.Rooted) (hroot : t.root? = some root)
    (h : Dispatch.Course (s.runner request t) root start moves log d) (hi : .succeeded i ∈ log) :
    ∃ job report, Renders (s.runner request t) start moves i job report := by
  obtain ⟨d₁, d₂, node, job, hthrough, hphase, hnode, hfinish⟩ :=
    h.exists_settled (r := s.runner request t) ht hroot hi
  obtain ⟨report, bench, -, hworld⟩ := Pass.finishStep_eq_ok_iff.mp (finishNode_eq_done hfinish)
  exact ⟨job, report, d₁, d₂, hthrough, hphase, by rw [hworld]; rfl⟩

section

variable (hb : Beginning t root start)
  (hcourse : Dispatch.Course (s.runner request t) root start moves log d)

include hb hcourse

lemma mem_reports_of_renders (h : Renders (s.runner request t) start moves i job report) :
    report ∈ d.world.reports := by
  obtain ⟨d₁, d₂, hthrough, hphase, hreports⟩ := h
  obtain ⟨before, log₁, after, -, hbefore, hm, hafter⟩ := hthrough.split hb.root?_eq hcourse
  have hkeeps := hb.keeps_of_replay (.move _ hbefore hm) hafter
  refine hkeeps.reports.subset ?_
  rw [hreports]
  exact mem_append_right _ (mem_singleton_self _)

/-- The last binding of a target delivers a value. If it comes from a component, then that component
has rendered before, and at the end it still has the value. -/
lemma delivers_of_renders (hstep : t.step? i = some step)
    (hbindings : step.bindings = before ++ b :: after)
    (hlast : ∀ later ∈ after, later.target ≠ b.target)
    (h : Renders (s.runner request t) start moves i job report) :
    ∃ v, job.component.stateValue? b.target = some v ∧
      (b.source = .params → v = (request.params.get? b.key).getD .null) ∧
      ∀ name, b.source = .component name → ∃ j job' report' c,
        j < t.size ∧ t.nameOf j = name ∧
        Renders (s.runner request t) start moves j job' report' ∧
        [report', report] <+ d.world.reports ∧
        d.world.components.get? name = some c ∧ c.stateValue? b.key = some v := by
  obtain ⟨d₁, d₂, hthrough, hphase, hreports⟩ := h
  obtain ⟨movesBefore, logBefore, movesAfter, rfl, hcourseBefore, hm, hafter⟩ :=
    hthrough.split hb.root?_eq hcourse
  have hkeeps : d₂.world.Keeps d.world :=
    hb.keeps_of_replay (.move _ hcourseBefore hm) hafter
  -- the values are those that the node found at its start
  obtain ⟨original, resolved, -, hresolved, hcomponent, -⟩ :=
    hb.finds_of_running hcourseBefore hphase hstep
  rw [hbindings] at hresolved
  obtain ⟨front, v, back, hvalue, rfl, hback⟩ := Sources.exists_value_of_resolve hresolved
  refine ⟨v, ?_, ?_, ?_⟩
  · rw [hcomponent]
    apply Component.stateValue?_fill
    rw [hback, mem_map]
    rintro ⟨later, hlater, htarget⟩
    exact hlast later hlater htarget
  · intro hparams
    rw [Sources.value_of_params hparams] at hvalue
    exact (Except.ok.inj hvalue).symm
  · intro name hname
    obtain ⟨fields, hfields, hkey⟩ := (Sources.value_of_component_eq_ok_iff hname).mp hvalue
    obtain ⟨hrendered, c, hc, rfl⟩ := Sources.state?_eq_some_iff.mp hfields
    -- the component that is read belongs to a node that has succeeded until then
    obtain ⟨j, hj, rfl⟩ : ∃ j, .succeeded j ∈ logBefore ∧ t.nameOf j = name := by
      rcases (hb.ledger hcourseBefore).rendered.mp hrendered with hmem | hmem
      · rw [hb.rendered_eq] at hmem
        cases hmem
      · exact hmem
    obtain ⟨job', report', hrenders⟩ := exists_renders hb.rooted hb.root?_eq hcourseBefore hj
    have hearlier : report' ∈ d₁.world.reports :=
      mem_reports_of_renders hb hcourseBefore hrenders
    refine ⟨j, job', report', c, ?_, rfl, renders_append hrenders _, ?_, ?_, ?_⟩
    · exact (hb.coherent hcourseBefore).lt_size _ hj
    · refine Sublist.trans ?_ hkeeps.reports.sublist
      rw [hreports]
      exact (singleton_sublist.mpr hearlier).append (Sublist.refl _)
    · have hmove := hb.keeps_of_move hcourseBefore hm
      exact ((hmove.trans hkeeps).component hrendered).trans hc
    · exact (Component.get?_stateFields c b.key).symm.trans hkey

end

variable {prepared : Prepared} {ready : Ready} {response : Response} {pass : Pass}
  {outcome : Except Fault (List Nat)}

/-- In every successful pass, whatever the order of its renders: a planned component is rendered
with what its bindings deliver, where of several bindings of a target the last one counts. A binding
to the caller's parameters delivers the parameter, or null. A binding to a component delivers the
value that the component has in the page of the response; that component is planned and reports
before. -/
theorem bindings_deliver_final_values (hprepared : s.prepare request = .ok prepared)
    (hready : s.ready request = .ok ready)
    (hrun : Dispatch.Execution (s.runner request ready.tree) ready.pass moves log outcome pass)
    (hanswer : answer ready.live ready.mode outcome pass = .ok response)
    (hstep : prepared.plan.steps[i]? = some step) (hbindings : step.bindings = before ++ b :: after)
    (hlast : ∀ later ∈ after, later.target ≠ b.target) :
    (∃ job report, Renders (s.runner request ready.tree) ready.pass moves i job report) ∧
    ∀ job report, Renders (s.runner request ready.tree) ready.pass moves i job report →
      (b.source = .params →
        job.component.stateValue? b.target = some ((request.params.get? b.key).getD .null)) ∧
      ∀ name, b.source = .component name → ∃ j job' report' c v,
        prepared.plan.names[j]? = some name ∧
        Renders (s.runner request ready.tree) ready.pass moves j job' report' ∧
        [report', report] <+ response.reports ∧
        response.page.components.get? name = some c ∧ c.stateValue? b.key = some v ∧
        job.component.stateValue? b.target = some v := by
  have hbuild := build_of_ready hready hprepared
  have ht : ready.tree.Rooted := RenderTree.rooted_of_build hbuild []
  have hnode : ready.tree.step? i = some step := by rw [RenderTree.step?_build hbuild, hstep]
  have hi : i < ready.tree.size := RenderTree.lt_size_of_step hnode
  obtain ⟨-, completed, rfl, rfl⟩ := answer_eq_ok_iff.mp hanswer
  have hsucceeded : .succeeded i ∈ log :=
    hrun.succeeded_of_ok ht (s.runner_returns request ready.tree) hi
  obtain ⟨root, d, hroot, hcourse, rfl⟩ := hrun.exists_course ht hi
  have hb : Beginning ready.tree root ready.pass := beginning_of_ready hready hroot
  refine ⟨exists_renders ht hroot hcourse hsucceeded, ?_⟩
  intro job report hrenders
  obtain ⟨v, hvalue, hparams, hcomponent⟩ :=
    delivers_of_renders hb hcourse hnode hbindings hlast hrenders
  constructor
  · intro hsource
    rw [hvalue, hparams hsource]
  · intro name hsource
    obtain ⟨j, job', report', c, hj, rfl, hrenders', hreports, hc, hkey⟩ := hcomponent name hsource
    refine ⟨j, job', report', c, v, ?_, hrenders', hreports, hc, hkey, hvalue⟩
    exact RenderTree.getElem?_names_of_build hbuild hj

/-- The foot renders before the list, and the list is handed the colour that the head has in the
end. -/
theorem bindings_deliver_final_values_list :
    let moves := [.start 0, .settle 0, .start 1, .start 2, .settle 2, .settle 1, .join 0]
    ∃ ready log outcome pass response job report c,
      Service.colors.ready .colors = .ok ready ∧
      Dispatch.Execution (Service.colors.runner .colors ready.tree) ready.pass moves log outcome
        pass ∧
      answer ready.live ready.mode outcome pass = .ok response ∧
      Renders (Service.colors.runner .colors ready.tree) ready.pass moves 1 job report ∧
      response.page.components.get? "head" = some c ∧
      (c.stateValue? "color").bind Value.string? = some "blue" ∧
      (job.component.stateValue? "hue").bind Value.string? = some "blue" := by
  intro moves
  obtain ⟨ready, hready, hroot, -⟩ := exists_ready_colors
  obtain ⟨prepared, hprepared, -⟩ := exists_prepared_of_ready hready
  have hend := of_any_toOption hready (P := fun ready =>
    let r := Service.colors.runner .colors ready.tree
    ((Dispatch.initial r 0 ready.pass).replay r moves).any fun d =>
        d.isOver 0 && (answer ready.live ready.mode (d.result 0) d.world).toOption.any
          fun response => (response.page.components.get? "head").any
            fun c => (c.stateValue? "color").bind Value.string? == some "blue") (by decide +kernel)
  have hsteps := of_any_toOption hprepared (P := fun prepared =>
    (prepared.plan.steps[1]?).map Step.bindings ==
      some [⟨"hue", .component "head", "color", "\x7b\x7b head.color \x7d\x7d"⟩])
    (by decide +kernel)
  obtain ⟨d, hd, hchecks⟩ := (Option.any_eq_true _ _).mp hend
  obtain ⟨hover, hanswer⟩ := (Bool.and_eq_true _ _).mp hchecks
  obtain ⟨log, hrun⟩ := Dispatch.exists_execution_of_replay hroot hd hover
  obtain ⟨response, hresponse, hhead⟩ := exists_of_any_toOption hanswer
  obtain ⟨c, hc, hcolor⟩ := (Option.any_eq_true _ _).mp hhead
  obtain ⟨step, hstep, hbindings⟩ := Option.map_eq_some_iff.mp (beq_iff_eq.mp hsteps)
  obtain ⟨⟨job, report, hrenders⟩, hdelivers⟩ := bindings_deliver_final_values
    hprepared hready hrun hresponse hstep
    (show step.bindings = [] ++ _ :: [] from hbindings) (by simp)
  obtain ⟨j, job', report', c', v, -, -, -, hc', hkey, hhue⟩ :=
    (hdelivers job report hrenders).2 "head" rfl
  obtain rfl : c = c' := Option.some.inj (hc.symm.trans hc')
  have hblue : (c.stateValue? "color").bind Value.string? = some "blue" := beq_iff_eq.mp hcolor
  refine ⟨ready, log, _, _, response, job, report, c, hready, hrun, hresponse, hrenders, hc,
    hblue, ?_⟩
  rw [hhue, ← hkey]
  exact hblue

end Service

end PageRender
