import PageRender.Proofs.Dispatch.Completion
import PageRender.Proofs.Lifecycle.Posted
import PageRender.Proofs.Service.Dependencies
import PageRender.Proofs.Service.Order

/-!
# Business faults prevail

Which of several things that go wrong in a pass is answered. A business fault on the blackboard at
the end of the walk prevails over all failures, those of its own component included; what a
component has reported before it failed or panicked stays where it is. Without such a fault the
first failure is answered, and a response is given if there is none.
-/

namespace PageRender

open List

lemma BusinessFault.ofValue?_eq_none_iff {v : Value} : ofValue? v = none ↔ v.json = .null := by
  unfold ofValue?
  cases v.json <;> simp

lemma Blackboard.fault?_eq_none_iff {b : Blackboard} :
    b.fault? = none ↔ ∀ v, b.get? faultKey = some v → v.json = .null := by
  simp only [fault?, Option.bind_eq_none_iff, BusinessFault.ofValue?_eq_none_iff]

namespace Pass

variable {setting : Setting} {step : Step} {node : Node} {job : Job} {p : Pass}

/-- What is on the blackboard when a component has been rendered, with or without success. -/
def boardAfter (setting : Setting) (step : Step) (job : Job) (p : Pass) : Blackboard :=
  ((job.renderer.render (input setting step)).run.run ⟨job.component, p.blackboard⟩).2.blackboard

lemma blackboard_finishStep :
    (p.finishStep setting step job).2.blackboard = p.boardAfter setting step job := by
  rw [finishStep, boardAfter]
  rcases (job.renderer.render (input setting step)).run.run ⟨job.component, p.blackboard⟩ with
    ⟨_ | _, bench⟩ <;> rfl

lemma blackboard_finishNode : (Service.finishNode setting node job p).2.blackboard =
    p.boardAfter setting node.step job := by
  rw [← blackboard_finishStep, Service.finishNode]
  rcases p.finishStep setting node.step job with ⟨_ | _, _⟩ <;> rfl

lemma blackboard_startStep : (p.startStep setting step).2.blackboard = p.blackboard := by
  rw [startStep]
  cases jobOf setting p step <;> rfl

end Pass

namespace Service

variable {s : Service} {request : Request} {ready : Ready} {t : RenderTree}
  {d d' : Dispatch Pass Pass.Job} {moves : List Move} {log : List LogEntry}
  {outcome : Except Fault (List Nat)} {pass : Pass} {step : Step} {job : Pass.Job} {i : Nat}
  {v : Value} {a : Except Halt Response}

/-! ### What moves leave on the blackboard -/

section

variable {es : List LogEntry} {m : Move}

lemma blackboard_of_settle (hphase : d.phase? i = some (.running job))
    (hstep : t.step? i = some step)
    (hrule : Dispatch.Rule (s.runner request t) d (.settle i) es d') :
    d'.world.blackboard = d.world.boardAfter (s.setting request) step job := by
  have hfinished {node : Node} {job' : Pass.Job} {ending : Ending} {w : Pass}
      (hphase' : d.phase? i = some (.running job')) (hnode : t.node? i = some node)
      (hfinish : finishNode (s.setting request) node job' d.world = (ending, w)) :
      w.blackboard = d.world.boardAfter (s.setting request) step job := by
    cases hphase.symm.trans hphase'
    cases hstep.symm.trans (RenderTree.step?_of_node hnode)
    rw [← Pass.blackboard_finishNode, hfinish]
  cases hrule with
  | succeed _ node job' w hphase' hnode hfinish =>
    rw [Dispatch.world_complete]
    exact hfinished hphase' hnode hfinish
  | fail _ node job' f w hphase' hnode hfinish => exact hfinished hphase' hnode hfinish
  | crash _ node job' p w hphase' hnode hfinish => exact hfinished hphase' hnode hfinish

/-- Only the end of a render changes the blackboard. -/
lemma blackboard_of_rule (hrule : Dispatch.Rule (s.runner request t) d m es d') :
    d'.world.blackboard = d.world.blackboard ∨ ∃ i job step, m = .settle i ∧
      d.phase? i = some (.running job) ∧ t.step? i = some step ∧
      d'.world.blackboard = d.world.boardAfter (s.setting request) step job := by
  have hstarted {node : Node} {found : Except Fault Pass.Job} {w : Pass}
      (hstart : d.world.startStep (s.setting request) node.step = (found, w)) :
      w.blackboard = d.world.blackboard := by
    have hboard : (d.world.startStep (s.setting request) node.step).2.blackboard =
        d.world.blackboard := Pass.blackboard_startStep
    rwa [hstart] at hboard
  have hsettled {i : Nat} {node : Node} {job : Pass.Job} (hm : m = .settle i)
      (hphase : d.phase? i = some (.running job)) (hnode : t.node? i = some node) :
      ∃ i job step, m = .settle i ∧ d.phase? i = some (.running job) ∧ t.step? i = some step ∧
        d'.world.blackboard = d.world.boardAfter (s.setting request) step job := by
    subst hm
    have hstep := RenderTree.step?_of_node hnode
    exact ⟨i, job, node.step, rfl, hphase, hstep, blackboard_of_settle hphase hstep hrule⟩
  cases hrule with
  | launch _ node job w hphase hpermit hnode hstart => exact Or.inl (hstarted hstart)
  | refuse _ node f w hphase hpermit hnode hstart => exact Or.inl (hstarted hstart)
  | succeed _ node job w hphase hnode hfinish => exact Or.inr (hsettled rfl hphase hnode)
  | fail _ node job f w hphase hnode hfinish => exact Or.inr (hsettled rfl hphase hnode)
  | crash _ node job p w hphase hnode hfinish => exact Or.inr (hsettled rfl hphase hnode)
  | join _ children hphase hover => exact Or.inl (congrArg _ (Dispatch.world_noticeCrashes _))

end

/-! ### Reports that last -/

/-- After moves of a pass a component is rendered: the node, the pass at that time, and what is
rendered. -/
inductive RendersAfter (s : Service) (request : Request) (ready : Ready) (moves : List Move)
    (i : Nat) (p : Pass) (step : Step) (job : Pass.Job) : Prop
  | intro (root : Nat) (d : Dispatch Pass Pass.Job) (hroot : ready.tree.root? = some root)
      (hmoves : (Dispatch.initial (s.runner request ready.tree) root ready.pass).replay
        (s.runner request ready.tree) moves = some d)
      (hphase : d.phase? i = some (.running job)) (hstep : ready.tree.step? i = some step)
      (hpass : d.world = p)

/-- One of the renders of a pass has left a value as the report of a business fault, and no later
one has changed the report. -/
inductive Lasts (s : Service) (request : Request) (ready : Ready) (moves : List Move) (v : Value) :
    Prop
  | intro (before after : List Move) (i : Nat) (p : Pass) (step : Step) (job : Pass.Job)
      (hmoves : moves = before ++ .settle i :: after)
      (hrender : RendersAfter s request ready before i p step job)
      (hreport : (p.boardAfter (s.setting request) step job).get? "_error_" = some v)
      (hkept : ∀ later rest j p' step' job', after = later ++ .settle j :: rest →
        RendersAfter s request ready (before ++ .settle i :: later) j p' step' job' →
        (p'.boardAfter (s.setting request) step' job').get? "_error_" =
          p'.blackboard.get? "_error_")

section

variable {root : Nat} (hroot : ready.tree.root? = some root)
  (hb : Beginning ready.tree root ready.pass)

include hb

lemma rule_of_replay {m : Move} {before : List Move}
    (hd : (Dispatch.initial (s.runner request ready.tree) root ready.pass).replay
      (s.runner request ready.tree) before = some d)
    (hm : d.move? (s.runner request ready.tree) m = some d') :
    Dispatch.Rule (s.runner request ready.tree) d m (d.record (s.runner request ready.tree) m)
      d' := by
  obtain ⟨log, hcourse⟩ := Dispatch.exists_course_of_replay hd
  exact .of_move? (hb.coherent hcourse).size_eq hm

include hroot

/-- A report that is not changed is there after all moves that follow. -/
lemma report_of_replay {before after : List Move}
    (hd : (Dispatch.initial (s.runner request ready.tree) root ready.pass).replay
      (s.runner request ready.tree) before = some d)
    (hreport : d.world.blackboard.get? "_error_" = some v)
    (hkept : ∀ later rest j p step job, after = later ++ .settle j :: rest →
      RendersAfter s request ready (before ++ later) j p step job →
      (p.boardAfter (s.setting request) step job).get? "_error_" = p.blackboard.get? "_error_")
    (hafter : d.replay (s.runner request ready.tree) after = some d') :
    d'.world.blackboard.get? "_error_" = some v := by
  induction after using reverseRecOn generalizing d' with
  | nil =>
    cases hafter
    exact hreport
  | append_singleton after m ih =>
    rw [Dispatch.replay_append, Option.bind_eq_some_iff] at hafter
    obtain ⟨e, he, hlast⟩ := hafter
    rw [Dispatch.replay_cons, Option.bind_eq_some_iff] at hlast
    obtain ⟨e', hm, hnil⟩ := hlast
    cases hnil
    have hreached : (Dispatch.initial (s.runner request ready.tree) root ready.pass).replay
        (s.runner request ready.tree) (before ++ after) = some e := by
      rw [Dispatch.replay_append, hd, Option.bind_some, he]
    have hreported : e.world.blackboard.get? "_error_" = some v := by
      refine ih ?_ he
      intro later rest j p step job hsplit
      apply hkept later (rest ++ [m]) j p step job
      rw [hsplit]
      simp
    rcases blackboard_of_rule (rule_of_replay hb hreached hm) with
      hsame | ⟨j, job, step, rfl, hphase, hstep, hboard⟩
    · rw [hsame]
      exact hreported
    · rw [hboard, hkept after [] j e.world step job rfl
        ⟨root, e, hroot, hreached, hphase, hstep, rfl⟩]
      exact hreported

end

/-- A report that lasts is there at the end of the walk. -/
lemma report_of_lasts (hready : s.ready request = .ok ready)
    (hrun : Dispatch.Execution (s.runner request ready.tree) ready.pass moves log outcome pass)
    (h : s.Lasts request ready moves v) : pass.blackboard.get? "_error_" = some v := by
  obtain ⟨before, after, i, p, step, job, hmoves, hrender, hreport, hkept⟩ := h
  obtain ⟨root, d, hroot, hbefore, hphase, hstep, rfl⟩ := hrender
  have hb : Beginning ready.tree root ready.pass := beginning_of_ready hready hroot
  cases hrun with
  | empty hnone => simp at hmoves
  | ended hroot' hcourse hover =>
    cases hroot.symm.trans hroot'
    have hend := hcourse.replay
    rw [hmoves, Dispatch.replay_append, hbefore, Option.bind_some, Dispatch.replay_cons,
      Option.bind_eq_some_iff] at hend
    obtain ⟨e, hm, hafter⟩ := hend
    have he : (Dispatch.initial (s.runner request ready.tree) root ready.pass).replay
        (s.runner request ready.tree) (before ++ [.settle i]) = some e := by
      rw [Dispatch.replay_append, hbefore, Option.bind_some, Dispatch.replay_cons, hm]
      rfl
    refine report_of_replay hroot hb he ?_ ?_ hafter
    · rw [blackboard_of_settle hphase hstep (rule_of_replay hb hbefore hm)]
      exact hreport
    · intro later rest j p' step' job' hsplit hrender'
      rw [append_assoc] at hrender'
      exact hkept later rest j p' step' job' hsplit hrender'

/-! ### Answers -/

/-- The answer of a pass is a business fault if one is reported at the end of the walk. -/
lemma answer_of_report {b : BusinessFault} {live : Page} {mode : Mode}
    (hreport : pass.blackboard.get? "_error_" = some v) (hv : BusinessFault.ofValue? v = some b) :
    (answer live mode outcome pass).mapError Halt.fault = .error (.fault (.business b)) := by
  have hfault : pass.blackboard.fault? = some b := by
    rw [Blackboard.fault?, Blackboard.faultKey, hreport]
    exact hv
  rw [answer, hfault]
  rfl

/-- The answer of a pass without a report is what has come of the walk. -/
lemma answer_of_no_report (hready : s.ready request = .ok ready)
    (hrun : Dispatch.Execution (s.runner request ready.tree) ready.pass moves log outcome pass)
    (hnone : pass.blackboard.fault? = none) :
    (∃ i f before after, log = before ++ .failed i f :: after ∧ (∀ j g, .failed j g ∉ before) ∧
      (answer ready.live ready.mode outcome pass).mapError Halt.fault = .error (.fault f)) ∨
    (∀ i f, .failed i f ∉ log) ∧ ∃ response,
      (answer ready.live ready.mode outcome pass).mapError Halt.fault = .ok response := by
  obtain ⟨prepared, -, hbuild, -⟩ := exists_prepared_of_ready hready
  have ht : ready.tree.Rooted := RenderTree.rooted_of_build hbuild []
  have houtcome := hrun.outcome_eq ht (s.runner_returns request ready.tree)
  rw [answer, hnone]
  cases outcome with
  | error f =>
    left
    obtain ⟨i, before, after, hlog, hbefore⟩ :=
      findSome?_fault_eq_some_iff.mp (Walk.result_ofLog_eq_error_iff.mp houtcome.symm)
    exact ⟨i, f, before, after, hlog, hbefore, rfl⟩
  | ok completed =>
    right
    exact ⟨(Walk.result_ofLog_eq_ok_iff.mp houtcome.symm).1, _, rfl⟩

/-- In a pass that is ready to run, in whatever order its nodes are run and whatever the components
do, a business fault that is reported at the end of the walk is answered, whether the walk has
failed or not. Every value but null is one. If none is reported, the first failure of the walk is
answered, and a response is given if there is no failure. So a report that a render has left
prevails, if it lasts; it does not matter whether this render or any other one has failed or
panicked. And no response has a report on its blackboard. For components of a kind, the report that
a render leaves is that of the operation, however that has ended, if the kind does not change it
when it finishes up. -/
theorem business_fault_prevails (hready : s.ready request = .ok ready)
    (hload : (s.runner request ready.tree).overload? = none) :
    (∃ moves, s.AnswersBy request moves (s.render request)) ∧
    (∀ v, BusinessFault.ofValue? v = none ↔ v.json = .null) ∧
    (∀ moves a, s.AnswersBy request moves a → ∃ log outcome pass,
      Dispatch.Execution (s.runner request ready.tree) ready.pass moves log outcome pass ∧
      (∀ v b, pass.blackboard.get? "_error_" = some v → BusinessFault.ofValue? v = some b →
        a = .error (.fault (.business b))) ∧
      ((∀ v, pass.blackboard.get? "_error_" = some v → v.json = .null) →
        (∃ i f before after, log = before ++ .failed i f :: after ∧
          (∀ j g, .failed j g ∉ before) ∧ a = .error (.fault f)) ∨
        (∀ i f, .failed i f ∉ log) ∧ ∃ response, a = .ok response) ∧
      (∀ v b, s.Lasts request ready moves v → BusinessFault.ofValue? v = some b →
        a = .error (.fault (.business b))) ∧
      ∀ response, a = .ok response → response.page.blackboard = some pass.blackboard ∧
        ∀ v, pass.blackboard.get? "_error_" = some v → v.json = .null) ∧
    ∀ (M : Type) (kind : Kind M) (input : Input) (c : Component) (start board : Blackboard)
      (model : M), kind.decode kind.fresh c.normalize input.params = .ok model →
      (kind.visible (input.context c.name) model).run.run start = (.ok true, board) →
      Leaves (fun bench => bench.blackboard.get? "_error_") (kind.finish (input.context c.name)) →
      ((kind.renderer.render input).run.run ⟨c, start⟩).2.blackboard.get? "_error_" =
        ((kind.dispatch (input.context c.name)).run.run ⟨model, board⟩).2.blackboard.get?
          "_error_" := by
  refine ⟨s.exists_answersBy_render request, fun v => BusinessFault.ofValue?_eq_none_iff, ?_, ?_⟩
  · intro moves a ha
    cases ha with
    | refused f hnot =>
      rw [hready] at hnot
      cases hnot
    | overloaded ready' p hready' hload' =>
      obtain rfl : ready = ready' := Except.ok.inj (hready.symm.trans hready')
      rw [hload] at hload'
      cases hload'
    | ended ready' log outcome pass hready' _ hrun =>
      obtain rfl : ready = ready' := Except.ok.inj (hready.symm.trans hready')
      refine ⟨log, outcome, pass, hrun, ?_, ?_, ?_, ?_⟩
      · intro v b
        exact answer_of_report
      · intro hnull
        exact answer_of_no_report hready hrun (Blackboard.fault?_eq_none_iff.mpr hnull)
      · intro v b hlasts
        exact answer_of_report (report_of_lasts hready hrun hlasts)
      · intro response hresponse
        obtain ⟨hnone, completed, -, rfl⟩ := answer_eq_ok_iff.mp (mapError_eq_ok_iff.mp hresponse)
        exact ⟨rfl, Blackboard.fault?_eq_none_iff.mp hnone⟩
  · intro M kind input c start board model hdecode hvisible hfinish
    exact Kind.part_of_render (fun board => board.get? "_error_") hdecode hvisible hfinish

end Service

/-- The kind of components that fail when the page opens. -/
def Kind.failing : Kind Fields :=
  { Kind.stateOnly "failing" with
    onOpen := fun context => Work.refuse (.handlerFailed context.component "boom") }

/-- The kind of components that report a business fault when the page opens, and then break down. -/
def Kind.refusing : Kind Fields :=
  { Kind.stateOnly "refusing" with
    onOpen := fun _ => do
      Work.post (·.report ⟨"closed", none⟩)
      Work.panic (some "broken") }

/-- The colours, with a list that fails and a foot that reports a business fault. -/
def Page.refused : Page :=
  (Page.colors.withComponent (.ofType "list" "failing")).withComponent (.ofType "foot" "refusing")

def Service.refused : Service where
  catalog := {
    scenarios := .ofList [("colors",
      [Kind.picker.renderer, Kind.failing.renderer, Kind.refusing.renderer].foldl
        Scenario.withRenderer (.ofPage .refused))] }

namespace Service

/-- The foot breaks down after the list has failed, and its report is answered all the same. -/
theorem business_fault_prevails_refused :
    ∃ ready moves log pass v f, Service.refused.ready .colors = .ok ready ∧
      (Service.refused.runner .colors ready.tree).overload? = none ∧
      Service.refused.Lasts .colors ready moves v ∧
      BusinessFault.ofValue? v = some ⟨"closed", none⟩ ∧
      Dispatch.Execution (Service.refused.runner .colors ready.tree) ready.pass moves log (.error f)
        pass ∧
      Service.refused.AnswersBy .colors moves (.error (.fault (.business ⟨"closed", none⟩))) := by
  obtain ⟨ready, hready⟩ : ∃ ready, Service.refused.ready .colors = .ok ready :=
    exists_ok_of_toBool (by decide +kernel)
  have hroot := of_any_toOption hready (P := fun ready => ready.tree.root? == some 0)
    (by decide +kernel)
  have hreplay := of_any_toOption hready (P := fun ready =>
    let r := Service.refused.runner .colors ready.tree
    (ready.tree.step? 2).isSome &&
      ((Dispatch.initial r 0 ready.pass).replay r
        [.start 0, .settle 0, .start 1, .start 2, .settle 1]).any fun d =>
          d.isRunning 2 && (d.move? r (.settle 2)).any fun d' =>
            (d'.world.blackboard.get? "_error_").any fun v =>
              BusinessFault.ofValue? v == some ⟨"closed", none⟩) (by decide +kernel)
  have hend := of_any_toOption hready (P := fun ready =>
    let r := Service.refused.runner .colors ready.tree
    ((Dispatch.initial r 0 ready.pass).replay r
      ([.start 0, .settle 0, .start 1, .start 2, .settle 1] ++ [.settle 2, .join 0])).any fun d =>
        d.isOver 0 && !(d.result 0).toBool) (by decide +kernel)
  have hload : (Service.refused.runner .colors ready.tree).overload? = none := by
    simp [Runner.overload?, runner, Service.refused, Settings.permits]
  obtain ⟨hplanned, hreached⟩ := (Bool.and_eq_true _ _).mp hreplay
  obtain ⟨step, hstep⟩ := Option.isSome_iff_exists.mp hplanned
  obtain ⟨d, hd, hchecks⟩ := (Option.any_eq_true _ _).mp hreached
  obtain ⟨hrunning, hsettled⟩ := (Bool.and_eq_true _ _).mp hchecks
  obtain ⟨job, hphase⟩ := Dispatch.isRunning_iff.mp hrunning
  obtain ⟨d', hsettle, hreported⟩ := (Option.any_eq_true _ _).mp hsettled
  obtain ⟨v, hv, hfault⟩ := (Option.any_eq_true _ _).mp hreported
  obtain ⟨e, he, hends⟩ := (Option.any_eq_true _ _).mp hend
  obtain ⟨hover, hfailed⟩ := (Bool.and_eq_true _ _).mp hends
  obtain ⟨log, hrun⟩ := Dispatch.exists_execution_of_replay (beq_iff_eq.mp hroot) he hover
  obtain ⟨f, hf⟩ : ∃ f, e.result 0 = .error f := by
    cases hresult : e.result 0 with
    | error f => exact ⟨f, rfl⟩
    | ok completed =>
      rw [hresult] at hfailed
      cases hfailed
  rw [hf] at hrun
  have hlasts : Service.refused.Lasts .colors ready
      ([.start 0, .settle 0, .start 1, .start 2, .settle 1] ++ [.settle 2, .join 0]) v := by
    refine ⟨_, [.join 0], 2, d.world, step, job, rfl,
      ⟨0, d, beq_iff_eq.mp hroot, hd, hphase, hstep, rfl⟩, ?_, ?_⟩
    · have hb := beginning_of_ready hready (beq_iff_eq.mp hroot)
      rw [← blackboard_of_settle hphase hstep (rule_of_replay hb hd hsettle)]
      exact hv
    · -- nothing is rendered afterwards
      intro later rest j p' step' job' hsplit
      cases later <;> simp at hsplit
  have hanswer := AnswersBy.ended ready log _ _ hready hload hrun
  obtain ⟨-, -, hanswers, -⟩ := business_fault_prevails hready hload
  obtain ⟨_, _, _, -, -, -, hprevails, -⟩ := hanswers _ _ hanswer
  rw [hprevails v _ hlasts (beq_iff_eq.mp hfault)] at hanswer
  exact ⟨ready, _, log, e.world, v, f, hready, hload, hlasts, beq_iff_eq.mp hfault, hrun, hanswer⟩

end Service

end PageRender
