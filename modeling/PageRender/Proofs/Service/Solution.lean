import PageRender.Proofs.Lifecycle.Blackboard
import PageRender.Proofs.Service.Dependencies

/-!
# Passes as solutions

If the blackboard never changes and bindings look upwards only, then what a node comes to is
determined by what the nodes above it have come to. A pass that is over without a fault solves these
equations, one for each node; and every other pass that begins in the same way can only come to the
same solution, whatever the order of its moves.
-/

namespace PageRender

open List

namespace Pass

variable {s : Setting} {step : Step} {start p q : Pass} {report : Report}

/-- What a step comes to in a pass: its component as it was at the start, with the bindings resolved
in the pass, renders to the component that stands there, with this report. -/
def Yields (s : Setting) (start p : Pass) (step : Step) (report : Report) : Prop :=
  ∃ job c, Finds s start p step job ∧
    (job.renderer.render (input s step)).run.run ⟨job.component, start.blackboard⟩ =
      (.ok report, ⟨c, start.blackboard⟩) ∧
    p.components.get? step.name = some c

lemma Yields.keeps (h : Yields s start p step report) (hkeeps : p.Keeps q)
    (hname : step.name ∈ p.rendered) : Yields s start q step report := by
  obtain ⟨job, c, hfinds, hrender, hc⟩ := h
  exact ⟨job, c, hfinds.keeps hkeeps, hrender, (hkeeps.component hname).trans hc⟩

end Pass

/-- A pass in which every node has come to something. -/
structure Solution (s : Setting) (t : RenderTree) (start p : Pass) (reportOf : Nat → Report) :
    Prop where
  rendered : ∀ {i}, i < t.size → t.nameOf i ∈ p.rendered
  yields : ∀ {i step}, t.step? i = some step → Pass.Yields s start p step (reportOf i)

namespace Service

/-- The planned components of a pass have renderers that do not change the blackboard. -/
def LeavesBlackboard (s : Service) (request : Request) (t : RenderTree) (start : Pass) : Prop :=
  ∀ {i step c r}, t.step? i = some step → start.components.get? step.name = some c →
    s.catalog.renderer request.scenario c.typeName = .ok r → r.LeavesBlackboard

variable {s : Service} {request : Request} {t : RenderTree} {start p : Pass} {log es : List LogEntry}
  {d d' : Dispatch Pass Pass.Job} {moves : List Move} {m : Move} {root i : Nat} {job : Pass.Job}
  {step : Step}

section

variable (hb : Beginning t root start) (hleaves : s.LeavesBlackboard request t start)

include hb hleaves

lemma leavesBlackboard_of_running
    (h : Dispatch.Course (s.runner request t) root start moves log d)
    (hi : d.phase? i = some (.running job)) (hstep : t.step? i = some step) :
    job.renderer.LeavesBlackboard := by
  obtain ⟨c, resolved, hc, -, -, hrenderer⟩ := hb.finds_of_running h hi hstep
  exact hleaves hstep hc hrenderer

lemma blackboard_of_course
    (h : Dispatch.Course (s.runner request t) root start moves log d) :
    d.world.blackboard = start.blackboard := by
  refine course_induction (P := fun _ d => d.world.blackboard = start.blackboard) hb.rooted
    hb.root?_eq rfl ?_ h
  intro moves log d m es d' hcourse hcoherent hrule heffect ih
  generalize hworld : d'.world = world at heffect
  cases heffect with
  | quiet es hes => exact ih
  | refused i step f hphase hstep hjob => exact ih
  | rendered i step job report bench next hphase hstep hrender =>
    have hleave := leavesBlackboard_of_running hb hleaves hcourse hphase hstep
    exact (hleave.eq_of_render hrender).trans ih
  | broken i step job halt bench hphase hstep hrender =>
    have hleave := leavesBlackboard_of_running hb hleaves hcourse hphase hstep
    exact (hleave.eq_of_render hrender).trans ih

/-- A node that has succeeded has come to something, and still does. -/
lemma yields_of_succeeded
    (h : Dispatch.Course (s.runner request t) root start moves log d) (hi : .succeeded i ∈ log)
    (hstep : t.step? i = some step) :
    ∃ report, Pass.Yields (s.setting request) start d.world step report := by
  revert i step
  refine course_induction (P := fun log d => ∀ {i step}, .succeeded i ∈ log →
    t.step? i = some step → ∃ report, Pass.Yields (s.setting request) start d.world step report)
    hb.rooted hb.root?_eq ?_ ?_ h
  · intro i step hi
    simp at hi
  · intro moves log d m es d' hcourse hcoherent hrule heffect ih i step hi hstep
    have hledger := hb.ledger hcourse
    have hkeeps : d.world.Keeps d'.world :=
      hledger.keeps_of_effect hcoherent hb.distinct hb.rendered_eq heffect
    rcases mem_append.mp hi with hold | hnew
    · obtain ⟨report, hyields⟩ := ih hold hstep
      refine ⟨report, hyields.keeps hkeeps ?_⟩
      exact hledger.rendered.mpr (Or.inr ⟨i, hold, RenderTree.nameOf_eq hstep⟩)
    · generalize hworld : d'.world = world at heffect
      cases heffect with
      | quiet es hes => cases (hes _ hnew).1
      | refused j step' f hphase hstep' hjob => simp at hnew
      | broken j step' job halt bench hphase hstep' hrender => simp at hnew
      | rendered j step' job report bench next hphase hstep' hrender =>
        obtain rfl : i = j := by simpa using hnew
        obtain rfl : step = step' := Option.some.inj (hstep.symm.trans hstep')
        have hfinds := hb.finds_of_running hcourse hphase hstep
        rw [blackboard_of_course hb hleaves hcourse] at hrender
        have hleave : bench.blackboard = start.blackboard :=
          (leavesBlackboard_of_running hb hleaves hcourse hphase hstep).eq_of_render hrender
        refine ⟨report, job, bench.subject, ?_, ?_, ?_⟩
        · rw [hworld] at hkeeps
          exact hfinds.keeps hkeeps
        · rw [hrender, ← hleave]
        · rw [Pass.commit, Dict.get?_insert, if_pos rfl]

/-- A pass in which every node has succeeded is a solution. -/
lemma exists_solution
    (h : Dispatch.Course (s.runner request t) root start moves log d)
    (hall : ∀ {i}, i < t.size → .succeeded i ∈ log) :
    ∃ reportOf, Solution (s.setting request) t start d.world reportOf := by
  have hexists : ∀ i, ∃ report, ∀ step, t.step? i = some step →
      Pass.Yields (s.setting request) start d.world step report := by
    intro i
    cases hstep : t.step? i with
    | none => exact ⟨⟨"", "", "", false, {}⟩, nofun⟩
    | some step =>
      obtain ⟨report, hyields⟩ := yields_of_succeeded hb hleaves h
        (hall (RenderTree.lt_size_of_step hstep)) hstep
      refine ⟨report, ?_⟩
      intro step' hstep'
      cases hstep'
      exact hyields
  choose reportOf hyields using hexists
  refine ⟨reportOf, ?_, fun hstep => hyields _ _ hstep⟩
  intro i hi
  exact (hb.ledger h).rendered.mpr (Or.inr ⟨i, hall hi, rfl⟩)

end

end Service

/-! ### Other orders -/

/-- Count what a node has come to. -/
def RenderTree.count (t : RenderTree) (reportOf : Nat → Report) (tally : Tally) (i : Nat) : Tally :=
  (tally.countBindings (((t.step? i).map fun step => step.bindings.length).getD 0)).countRender
    (reportOf i).visible

lemma RenderTree.count_right_comm (t : RenderTree) (reportOf : Nat → Report) (tally : Tally)
    (i j : Nat) : t.count reportOf (t.count reportOf tally i) j =
      t.count reportOf (t.count reportOf tally j) i := by
  unfold count Tally.countRender Tally.countBindings
  cases (reportOf i).visible <;> cases (reportOf j).visible <;>
    simp [Nat.add_right_comm]

/-- A state of a pass on the way to a solution. -/
structure Approaches (t : RenderTree) (start solution : Pass) (reportOf : Nat → Report)
    (log : List LogEntry) (p : Pass) : Prop where
  failed : ∀ i f, .failed i f ∉ log
  component : ∀ {i}, .succeeded i ∈ log →
    p.components.get? (t.nameOf i) = solution.components.get? (t.nameOf i)
  reports : p.reports = start.reports ++ (log.filterMap LogEntry.success?).map reportOf
  tally : p.tally = (log.filterMap LogEntry.success?).foldl (t.count reportOf) start.tally

namespace Approaches

variable {s : Service} {request : Request} {t : RenderTree} {start solution p : Pass}
  {reportOf : Nat → Report} {log es : List LogEntry} {d d' : Dispatch Pass Pass.Job}
  {moves : List Move} {m : Move} {root i : Nat} {job : Pass.Job} {step : Step}

/-- A move in which nothing ends. -/
lemma quiet (h : Approaches t start solution reportOf log p)
    (hes : ∀ e ∈ es, e.success? = none ∧ e.fault? = none) :
    Approaches t start solution reportOf (log ++ es) p := by
  have hnone : es.filterMap LogEntry.success? = [] := filterMap_eq_nil_iff.mpr fun e he => (hes e he).1
  constructor
  · intro i f hf
    rcases mem_append.mp hf with hf | hf
    · exact h.failed i f hf
    · cases (hes _ hf).2
  · intro i hi
    rcases mem_append.mp hi with hi | hi
    · exact h.component hi
    · cases (hes _ hi).1
  · rw [filterMap_append, hnone, append_nil, h.reports]
  · rw [filterMap_append, hnone, append_nil, h.tally]

/-- A node that renders to what it has come to in the solution. -/
lemma rendered (h : Approaches t start solution reportOf log p) (hstep : t.step? i = some step)
    {board : Blackboard} {c : Component} {next : List Nat}
    (hkeeps : ∀ {j}, .succeeded j ∈ log → t.nameOf j ≠ step.name)
    (hc : solution.components.get? step.name = some c) :
    Approaches t start solution reportOf (log ++ .succeeded i :: next.map .dispatched)
      ({ p with blackboard := board }.commit step c (reportOf i)) := by
  have hsuccesses : (log ++ .succeeded i :: next.map LogEntry.dispatched).filterMap
      LogEntry.success? = log.filterMap LogEntry.success? ++ [i] := by
    simp [LogEntry.success?, Function.comp_def]
  constructor
  · intro j f
    simpa using h.failed j f
  · intro j hj
    rw [Pass.commit, Dict.get?_insert]
    rcases (show LogEntry.succeeded j ∈ log ∨ j = i by simpa using hj) with hold | rfl
    · rw [if_neg (hkeeps hold)]
      exact h.component hold
    · rw [RenderTree.nameOf_eq hstep, if_pos rfl, hc]
  · rw [hsuccesses, map_append, ← append_assoc, ← h.reports]
    rfl
  · rw [hsuccesses, foldl_append, ← h.tally]
    simp [Pass.commit, RenderTree.count, hstep]

section

variable (hsolution : Solution (s.setting request) t start solution reportOf)
  (hbound : t.BoundAbove) (hb : Beginning t root start)

include hsolution hbound hb

/-- What a dispatched node reads is as in the solution. -/
lemma state_eq (hcourse : Dispatch.Course (s.runner request t) root start moves log d)
    (h : Approaches t start solution reportOf log d.world) (hi : .dispatched i ∈ log)
    (hstep : t.step? i = some step) :
    ∀ b ∈ step.bindings, ∀ name, b.source = .component name →
      (solution.sources (s.setting request)).state? name =
        (d.world.sources (s.setting request)).state? name := by
  intro b hmem name hname
  obtain ⟨a, ha, rfl⟩ := hbound hstep hmem hname
  have hsucceeded : .succeeded a ∈ log := (hb.coherent hcourse).succeeded_of_above hi ha
  have hrendered : t.nameOf a ∈ d.world.rendered :=
    (hb.ledger hcourse).rendered.mpr (Or.inr ⟨a, hsucceeded, rfl⟩)
  have hrendered' : t.nameOf a ∈ solution.rendered :=
    hsolution.rendered ((hb.coherent hcourse).lt_size _ hsucceeded)
  simp [Sources.state?, Pass.sources, hrendered, hrendered', h.component hsucceeded]

/-- A node that can start finds what it needs. -/
lemma jobOf_ne_error (hcourse : Dispatch.Course (s.runner request t) root start moves log d)
    (h : Approaches t start solution reportOf log d.world) (hphase : d.phase? i = some .queued)
    (hstep : t.step? i = some step) (f : Fault) :
    d.world.jobOf (s.setting request) step ≠ .error f := by
  intro herror
  have hcoherent := hb.coherent hcourse
  have hstate := h.state_eq hsolution hbound hb hcourse
    (hcoherent.dispatched_of_phase hphase nofun) hstep
  obtain ⟨job, c, hfinds, -, -⟩ := hsolution.yields hstep
  have huntouched := (hb.ledger hcourse).untouched_of_unfinished hcoherent hb.distinct
    (RenderTree.lt_size_of_step hstep) (hcoherent.succeeded_not_mem hphase rfl)
  rw [RenderTree.nameOf_eq hstep] at huntouched
  have hjob := (Pass.jobOf_eq_ok_iff_finds huntouched).mpr (hfinds.congr hstate)
  rw [hjob] at herror
  cases herror

variable (hleaves : s.LeavesBlackboard request t start)

include hleaves

/-- A running node renders to what it has come to in the solution. -/
lemma render_eq (hcourse : Dispatch.Course (s.runner request t) root start moves log d)
    (h : Approaches t start solution reportOf log d.world)
    (hphase : d.phase? i = some (.running job)) (hstep : t.step? i = some step) :
    ∃ c, (job.renderer.render (Pass.input (s.setting request) step)).run.run
        ⟨job.component, d.world.blackboard⟩ = (.ok (reportOf i), ⟨c, start.blackboard⟩) ∧
      solution.components.get? step.name = some c := by
  have hstate := h.state_eq hsolution hbound hb hcourse
    ((hb.coherent hcourse).dispatched_of_phase hphase nofun) hstep
  obtain ⟨job', c, hfinds', hrender, hc⟩ := hsolution.yields hstep
  have hfinds := hb.finds_of_running hcourse hphase hstep
  obtain rfl : job = job' := hfinds.unique (hfinds'.congr hstate)
  rw [Service.blackboard_of_course hb hleaves hcourse]
  exact ⟨c, hrender, hc⟩

/-- However a pass goes on, it approaches the solution. -/
lemma of_course (hcourse : Dispatch.Course (s.runner request t) root start moves log d) :
    Approaches t start solution reportOf log d.world := by
  refine Service.course_induction
    (P := fun log d => Approaches t start solution reportOf log d.world) hb.rooted hb.root?_eq ?_ ?_
    hcourse
  · exact ⟨by simp, by simp, by simp [Dispatch.initial, LogEntry.success?], rfl⟩
  · intro moves log d m es d' hcourse hcoherent hrule heffect ih
    generalize hworld : d'.world = world at heffect
    cases heffect with
    | quiet es hes => exact ih.quiet hes
    | refused i step f hphase hstep hjob =>
      exact absurd hjob (ih.jobOf_ne_error hsolution hbound hb hcourse hphase hstep f)
    | rendered i step job report bench next hphase hstep hrender =>
      obtain ⟨c, hrender', hc⟩ :=
        ih.render_eq hsolution hbound hb hleaves hcourse hphase hstep
      cases hrender.symm.trans hrender'
      refine ih.rendered hstep ?_ hc
      intro j hj hname
      refine hcoherent.succeeded_not_mem hphase rfl ?_
      rwa [← hb.distinct (hcoherent.lt_size _ hj) (RenderTree.lt_size_of_step hstep)
        (hname.trans (RenderTree.nameOf_eq hstep).symm)]
    | broken i step job halt bench hphase hstep hrender =>
      obtain ⟨c, hrender', hc⟩ :=
        ih.render_eq hsolution hbound hb hleaves hcourse hphase hstep
      cases hrender.symm.trans hrender'

end

end Approaches

end PageRender
