import PageRender.Proofs.Service.Answer

/-!
# What a move does to a pass

While a service runs a pass, a move that starts or ends a node changes the pass, and no other does.
There are three such changes: a node is refused at its start, its render is put in place, or its
render breaks off. What every one of them keeps, the pass keeps from its start to its end.
-/

namespace PageRender

open List

namespace Service

variable {s : Service} {request : Request} {t : RenderTree} {start : Pass}
  {log es : List LogEntry} {d d' : Dispatch Pass Pass.Job} {m : Move} {moves : List Move}
  {root : Nat}

lemma finishNode_eq_done {setting : Setting} {node : Node} {job : Pass.Job} {p p' : Pass}
    (h : finishNode setting node job p = (.done, p')) :
    p.finishStep setting node.step job = (.ok (), p') := by
  unfold finishNode at h
  split at h
  · next hfinish =>
    cases h
    exact hfinish
  · cases h

lemma finishNode_eq_failed {setting : Setting} {node : Node} {job : Pass.Job} {p p' : Pass}
    {f : Fault} (h : finishNode setting node job p = (.failed f, p')) :
    p.finishStep setting node.step job = (.error f, p') := by
  unfold finishNode at h
  split at h
  · cases h
  · next hfinish =>
    cases h
    exact hfinish

/-- A panic in a component is caught, and is a failure like any other. -/
lemma runner_returns (s : Service) (request : Request) (tree : RenderTree) :
    (s.runner request tree).Returns := by
  intro node job world p h
  change (finishNode _ node job world).1 = _ at h
  unfold finishNode at h
  split at h <;> cases h

/-- What happens in a move of a pass, and the pass after it. -/
inductive Effect (setting : Setting) (t : RenderTree) (d : Dispatch Pass Pass.Job) :
    List LogEntry → Pass → Prop
  /-- Nothing ends. -/
  | quiet (es : List LogEntry) (hes : ∀ e ∈ es, e.success? = none ∧ e.fault? = none) :
      Effect setting t d es d.world
  /-- A node does not find what it needs. -/
  | refused (i : Nat) (step : Step) (f : Fault) (hphase : d.phase? i = some .queued)
      (hstep : t.step? i = some step) (hjob : d.world.jobOf setting step = .error f) :
      Effect setting t d [.started i, .failed i f] d.world.countFailure
  /-- A node has rendered. -/
  | rendered (i : Nat) (step : Step) (job : Pass.Job) (report : Report) (bench : Bench Component)
      (next : List Nat) (hphase : d.phase? i = some (.running job)) (hstep : t.step? i = some step)
      (hrender : (job.renderer.render (Pass.input setting step)).run.run
        ⟨job.component, d.world.blackboard⟩ = (.ok report, bench)) :
      Effect setting t d (.succeeded i :: next.map .dispatched)
        ({ d.world with blackboard := bench.blackboard }.commit step bench.subject report)
  /-- The render of a node has halted. -/
  | broken (i : Nat) (step : Step) (job : Pass.Job) (halt : Halt) (bench : Bench Component)
      (hphase : d.phase? i = some (.running job)) (hstep : t.step? i = some step)
      (hrender : (job.renderer.render (Pass.input setting step)).run.run
        ⟨job.component, d.world.blackboard⟩ = (.error halt, bench)) :
      Effect setting t d [.failed i (Pass.haltFault job.component.name halt)]
        { d.world with blackboard := bench.blackboard }.countFailure

lemma Effect.of_rule (hcrash : ∀ nodes, d.crashedAmong nodes = [])
    (hrule : Dispatch.Rule (s.runner request t) d m es d') :
    Effect (s.setting request) t d es d'.world := by
  cases hrule with
  | launch i node job w hphase hpermit hnode hstart =>
    obtain ⟨-, hw⟩ := Pass.startStep_eq_ok_iff.mp hstart
    subst hw
    exact .quiet _ (by simp [LogEntry.success?, LogEntry.fault?])
  | refuse i node f w hphase hpermit hnode hstart =>
    obtain ⟨hjob, hw⟩ := Pass.startStep_eq_error_iff.mp hstart
    subst hw
    exact .refused i node.step f hphase (RenderTree.step?_of_node hnode) hjob
  | succeed i node job w hphase hnode hfinish =>
    obtain ⟨report, bench, hrender, hw⟩ :=
      Pass.finishStep_eq_ok_iff.mp (finishNode_eq_done hfinish)
    rw [Dispatch.world_complete, hw]
    exact .rendered i node.step job report bench _ hphase (RenderTree.step?_of_node hnode) hrender
  | fail i node job f w hphase hnode hfinish =>
    obtain ⟨halt, bench, hrender, rfl, hw⟩ :=
      Pass.finishStep_eq_error_iff.mp (finishNode_eq_failed hfinish)
    subst hw
    exact .broken i node.step job halt bench hphase (RenderTree.step?_of_node hnode) hrender
  | crash i node job p w hphase hnode hfinish =>
    exact absurd (congrArg Prod.fst hfinish) (s.runner_returns request t node job d.world p)
  | join i children hphase hover =>
    change Effect _ t d _ (d.noticeCrashes children).world
    rw [Dispatch.world_noticeCrashes, hcrash children]
    exact .quiet _ (by simp [LogEntry.success?, LogEntry.fault?])

/-- What holds at the start of a pass and is kept by every move holds in every state that the pass
may come to. -/
lemma course_induction {P : List LogEntry → Dispatch Pass Pass.Job → Prop} (ht : t.Rooted)
    (hroot : t.root? = some root)
    (initial : P [.dispatched root] (Dispatch.initial (s.runner request t) root start))
    (move : ∀ {moves log d m es d'}, Dispatch.Course (s.runner request t) root start moves log d →
      Dispatch.Coherent (s.runner request t) log d → Dispatch.Rule (s.runner request t) d m es d' →
      Effect (s.setting request) t d es d'.world → P log d → P (log ++ es) d')
    (h : Dispatch.Course (s.runner request t) root start moves log d) : P log d := by
  induction h with
  | initial => exact initial
  | move m h hm ih =>
    have hcoherent := h.coherent (r := s.runner request t) ht hroot
    have hrule := Dispatch.Rule.of_move? hcoherent.size_eq hm
    have hcrash := hcoherent.crashedAmong_eq_nil
      (h.crashed_not_mem (r := s.runner request t) ht hroot (s.runner_returns request t))
    exact move h hcoherent hrule (.of_rule hcrash hrule) ih

end Service

end PageRender
