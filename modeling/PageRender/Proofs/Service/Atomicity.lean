import PageRender.Proofs.Pass.Atomic
import PageRender.Proofs.Service.Dependencies

/-!
# Passes in which components break down

While nodes run side by side, every one of them leaves the pass as it was or puts its component in
place. So whenever one looks at a pass, each component is as it was at the start, or has been made of
that by one render from its first stage to its last.
-/

namespace PageRender

open List

/-- Where a component of a pass comes from. -/
inductive Origin (s : Setting) (t : RenderTree) (start p : Pass) (log : List LogEntry)
    (name : String) : Prop
  /-- It is the one with which the pass began, or there is none. -/
  | untouched (h : p.components.get? name = start.components.get? name)
  /-- A node that has succeeded has made it of the one with which the pass began. -/
  | made (i : Nat) (step : Step) (r : Renderer) (c c' : Component) (report : Report)
      (hlog : .succeeded i ∈ log) (hstep : t.step? i = some step) (hname : step.name = name)
      (hstart : start.components.get? name = some c) (hmakes : Pass.Makes s step r c c' report)
      (hcomponent : p.components.get? name = some c') (hreport : report ∈ p.reports)

namespace Service

variable {s : Service} {request : Request} {t : RenderTree} {start p : Pass} {log es : List LogEntry}
  {d d' : Dispatch Pass Pass.Job} {m : Move} {moves : List Move} {root i : Nat} {step : Step}
  {name : String}

lemma Effect.failed {setting : Setting} {f : Fault} (h : Effect setting t d es p)
    (hf : .failed i f ∈ es) : d.world.Failed p := by
  cases h with
  | quiet es hes => cases (hes _ hf).2
  | refused j step g hphase hstep hjob => exact Pass.failed_countFailure
  | rendered j step job report bench next hphase hstep hrender => simp at hf
  | broken j step job halt bench hphase hstep hrender => exact Pass.failed_countFailure

lemma Effect.eq_world {setting : Setting} (h : Effect setting t d es p)
    (hes : ∀ e ∈ es, e.success? = none ∧ e.fault? = none) : p = d.world := by
  cases h with
  | quiet es _ => rfl
  | refused j step f hphase hstep hjob => cases (hes (.failed j f) (by simp)).2
  | rendered j step job report bench next hphase hstep hrender =>
    cases (hes (.succeeded j) (by simp)).1
  | broken j step job halt bench hphase hstep hrender =>
    cases (hes (.failed j _) (mem_singleton_self _)).2

section

variable (hb : Beginning t root start)
  (hcourse : Dispatch.Course (s.runner request t) root start moves log d)

include hb hcourse

/-- A node that succeeds puts in place what it has made of its component as it was at the start. -/
lemma Effect.committed (h : Effect (s.setting request) t d es p) (hi : .succeeded i ∈ es)
    (hstep : t.step? i = some step) : ∃ r c c' report,
      start.components.get? step.name = some c ∧
      Pass.Makes (s.setting request) step r c c' report ∧
      Pass.Committed step c' report d.world p := by
  cases h with
  | quiet es hes => cases (hes _ hi).1
  | refused j step' f hphase hstep' hjob => simp at hi
  | broken j step' job halt bench hphase hstep' hrender => simp at hi
  | rendered j step' job report bench next hphase hstep' hrender =>
    obtain rfl : i = j := by simpa using hi
    obtain rfl : step = step' := Option.some.inj (hstep.symm.trans hstep')
    obtain ⟨c, resolved, hc, hresolved, hcomponent, hrenderer⟩ :=
      hb.finds_of_running hcourse hphase hstep
    rw [hcomponent] at hrender
    exact ⟨job.renderer, c, bench.subject, report, hc,
      ⟨resolved, _, _, Sources.map_fst_of_resolve hresolved, hrenderer, hrender⟩,
      Pass.committed_commit ((hb.ledger hcourse).mem_keys_of_running hphase hstep)⟩

end

end Service

namespace Origin

variable {s : Service} {request : Request} {setting : Setting} {t : RenderTree} {start p q : Pass}
  {log : List LogEntry} {d : Dispatch Pass Pass.Job} {moves : List Move} {root : Nat} {name : String}

/-- What comes later leaves a component where it is. -/
lemma mono (h : Origin setting t start p log name) (es : List LogEntry)
    (hcomponent : q.components.get? name = p.components.get? name) (hreports : p.reports <+: q.reports) :
    Origin setting t start q (log ++ es) name := by
  cases h with
  | untouched h => exact .untouched (hcomponent.trans h)
  | made i step r c c' report hlog hstep hname hstart hmakes hc hreport =>
    exact .made i step r c c' report (mem_append_left es hlog) hstep hname hstart hmakes
      (hcomponent.trans hc) (hreports.subset hreport)

lemma of_course (hb : Beginning t root start)
    (h : Dispatch.Course (s.runner request t) root start moves log d) (name : String) :
    Origin (s.setting request) t start d.world log name := by
  refine Service.course_induction (P := fun log d =>
    Origin (s.setting request) t start d.world log name) hb.rooted hb.root?_eq (.untouched rfl) ?_ h
  intro moves log d m es d' hcourse hcoherent hrule heffect ih
  generalize d'.world = world at heffect
  cases heffect with
  | quiet es hes => exact ih.mono es rfl prefix_rfl
  | refused i step f hphase hstep hjob => exact ih.mono _ rfl prefix_rfl
  | broken i step job halt bench hphase hstep hrender => exact ih.mono _ rfl prefix_rfl
  | rendered i step job report bench next hphase hstep hrender =>
    obtain ⟨r, c, c', report', hc, hmakes, hcommitted⟩ :=
      Service.Effect.committed hb hcourse (.rendered i step job report bench next hphase hstep hrender)
        mem_cons_self hstep
    by_cases hname : step.name = name
    · subst hname
      refine .made i step r c c' report' (mem_append_right _ mem_cons_self) hstep rfl hc hmakes
        hcommitted.component ?_
      rw [hcommitted.reports]
      exact mem_append_right _ (mem_singleton_self _)
    · exact ih.mono _ (hcommitted.others (Ne.symm hname)) (prefix_append _ _)

end Origin

namespace Service

/-- Whatever the components do before they halt: a step that is run fails and leaves everything but
the blackboard and the count of failures as it was, or it puts in place what one render without a
halt has made of its component, through all the stages of its kind, and accounts for that. In a pass
whose nodes run side by side this is so of every single move. So at any time each component is the
one with which the pass began, or what one such render has made of that one. -/
theorem steps_are_atomic (s : Service) (request : Request) :
    (∀ (setting : Setting) (step : Step) (p q : Pass),
      (∀ f, p.runStep setting step = (.error f, q) → p.Failed q) ∧
      (∀ u, p.runStep setting step = (.ok u, q) → ∃ r c c' report,
        p.components.get? step.name = some c ∧ Pass.Makes setting step r c c' report ∧
          Pass.Committed step c' report p q)) ∧
    (∀ (setting : Setting) (step : Step) (M : Type) (kind : Kind M) (c c' : Component)
      (report : Report), Pass.Makes setting step kind.renderer c c' report →
      report.trace = ⟨[.decoded, .ofVisible report.visible, .encoded, .finalized]⟩) ∧
    ∀ ready root moves log d, s.ready request = .ok ready → ready.tree.root? = some root →
      Dispatch.Course (s.runner request ready.tree) root ready.pass moves log d →
      (∀ m d', d.move? (s.runner request ready.tree) m = some d' →
        let es := d.record (s.runner request ready.tree) m
        (∀ i f, .failed i f ∈ es → d.world.Failed d'.world) ∧
        (∀ i step, .succeeded i ∈ es → ready.tree.step? i = some step → ∃ r c c' report,
          ready.pass.components.get? step.name = some c ∧
            Pass.Makes (s.setting request) step r c c' report ∧
            Pass.Committed step c' report d.world d'.world) ∧
        ((∀ e ∈ es, e.success? = none ∧ e.fault? = none) → d'.world = d.world)) ∧
      ∀ name, Origin (s.setting request) ready.tree ready.pass d.world log name := by
  refine ⟨fun setting step p q => ⟨fun f => Pass.runStep_eq_error, fun u => Pass.runStep_eq_ok⟩,
    fun setting step M kind c c' report => Pass.Makes.trace_eq, ?_⟩
  intro ready root moves log d hready hroot hcourse
  have hb := beginning_of_ready hready hroot
  refine ⟨?_, Origin.of_course hb hcourse⟩
  intro m d' hm
  have heffect := hb.effect_of_move hcourse hm
  refine ⟨fun i f => heffect.failed, ?_, heffect.eq_world⟩
  intro i step hi hstep
  exact Effect.committed hb hcourse heffect hi hstep

end Service

/-- The kind of components that leave a mark on their model and on the blackboard, and then break
down. -/
def Kind.fragile : Kind Fields :=
  { Kind.stateOnly "fragile" with
    onOpen := fun _ => do
      Work.change (·.insert "color" (.ofString "red"))
      Work.post (·.set "mark" (.ofString "red"))
      Work.panic (some "broken") }

/-- The colours, with a list that breaks down. -/
def Page.broken : Page :=
  Page.colors.withComponent (.ofType "list" "fragile")

def Service.broken : Service where
  catalog := {
    scenarios := .ofList [("colors", ((Scenario.ofPage .broken).withKind .picker).withKind .fragile)] }

namespace Service

/-- The head of that page has rendered when the list breaks down. The mark of the list is on the
blackboard, but there is no colour in its state. -/
theorem steps_are_atomic_broken :
    ∃ ready log d d', Service.broken.ready .colors = .ok ready ∧
      Dispatch.Course (Service.broken.runner .colors ready.tree) 0 ready.pass
        [.start 0, .settle 0, .start 1] log d ∧
      d.move? (Service.broken.runner .colors ready.tree) (.settle 1) = some d' ∧
      (d'.world.blackboard.get? "mark").isSome = true ∧ d.world.Failed d'.world ∧
      (d'.world.components.get? "list").all (fun c => (c.stateValue? "color").isNone) = true ∧
      ∃ step r c c' report, Pass.Makes (Service.broken.setting .colors) step r c c' report ∧
        ready.pass.components.get? "head" = some c ∧ d'.world.components.get? "head" = some c' := by
  obtain ⟨ready, hready⟩ : ∃ ready, Service.broken.ready .colors = .ok ready :=
    exists_ok_of_toBool (by decide +kernel)
  have hroot := of_any_toOption hready (P := fun ready => ready.tree.root? == some 0)
    (by decide +kernel)
  have hmoves := of_any_toOption hready (P := fun ready =>
    let r := Service.broken.runner .colors ready.tree
    let color? (p : Pass) := (p.components.get? "head").bind fun c =>
      (c.stateValue? "color").bind Value.string?
    ((Dispatch.initial r 0 ready.pass).replay r [.start 0, .settle 0, .start 1]).any fun d =>
      ((d.record r (.settle 1)).any fun e => e.fault?.isSome) &&
        (d.move? r (.settle 1)).any fun d' => (d'.world.blackboard.get? "mark").isSome &&
          ((d'.world.components.get? "list").all fun c => (c.stateValue? "color").isNone) &&
          color? d'.world != color? ready.pass) (by decide +kernel)
  obtain ⟨d, hd, hchecks⟩ := (Option.any_eq_true _ _).mp hmoves
  obtain ⟨hrecord, hsettled⟩ := (Bool.and_eq_true _ _).mp hchecks
  obtain ⟨d', hm, hchecks⟩ := (Option.any_eq_true _ _).mp hsettled
  obtain ⟨hmarks, hcolor⟩ := (Bool.and_eq_true _ _).mp hchecks
  obtain ⟨hmark, hlist⟩ := (Bool.and_eq_true _ _).mp hmarks
  obtain ⟨e, he, hfault⟩ := any_eq_true.mp hrecord
  obtain ⟨i, f, rfl⟩ : ∃ i f, e = .failed i f := by
    cases e with
    | failed i f => exact ⟨i, f, rfl⟩
    | _ => cases hfault
  obtain ⟨log, hcourse⟩ := Dispatch.exists_course_of_replay hd
  obtain ⟨-, -, hpass⟩ := steps_are_atomic Service.broken .colors
  obtain ⟨hmove, -⟩ := hpass ready 0 _ log d hready (beq_iff_eq.mp hroot) hcourse
  obtain ⟨-, horigin⟩ := hpass ready 0 _ _ d' hready (beq_iff_eq.mp hroot) (.move _ hcourse hm)
  have hfailed : d.world.Failed d'.world := (hmove _ d' hm).1 i f he
  refine ⟨ready, log, d, d', hready, hcourse, hm, hmark, hfailed, hlist, ?_⟩
  cases horigin "head" with
  | untouched h => simp [h] at hcolor
  | made i step r c c' report hlog hstep hname hstart hmakes hcomponent hreport =>
    exact ⟨step, r, c, c', report, hmakes, hstart, hcomponent⟩

end Service

end PageRender
