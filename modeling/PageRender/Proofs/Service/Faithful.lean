import PageRender.Proofs.Service.Ledger

/-!
# Reports and the log

While a pass runs, its reports tell the same as the log of the walk: one report for each node that
has succeeded, in the order of their success, with the component and the operation of the node. This
rests on the copies that are rendered: as long as a node has not run, its component is still the one
with which the pass began, and bears the name of the node.
-/

namespace PageRender

open List

/-- The component and the operation of a node. -/
def RenderTree.item? (t : RenderTree) (i : Nat) : Option (String × String) :=
  (t.step? i).map Step.item

/-- What the log of a walk says of the reports of the pass, and of the copies that are rendered. -/
structure Faithful (t : RenderTree) (start : Pass) (log : List LogEntry)
    (d : Dispatch Pass Pass.Job) : Prop where
  reports : d.world.reports.map Report.item =
    start.reports.map Report.item ++ (log.filterMap LogEntry.success?).filterMap t.item?
  job : ∀ {i job}, d.phase? i = some (.running job) → job.component.name = t.nameOf i

namespace Faithful

variable {s : Service} {request : Request} {t : RenderTree} {start : Pass} {log es : List LogEntry}
  {d d' : Dispatch Pass Pass.Job} {i : Nat} {m : Move} {job : Pass.Job}

lemma initial (r : Runner Pass Pass.Job) (ht : r.tree = t) {root : Nat} (hroot : root < t.size) :
    Faithful t start [.dispatched root] (Dispatch.initial r root start) := by
  subst ht
  constructor
  · simp [Dispatch.initial, LogEntry.success?]
  · intro i job hi
    exact absurd hi (Dispatch.not_running_initial hroot job)

/-- A move without a success adds no report. -/
lemma reports_of_same (h : Faithful t start log d) (hes : ∀ e ∈ es, e.success? = none) :
    d.world.reports.map Report.item = start.reports.map Report.item ++
      ((log ++ es).filterMap LogEntry.success?).filterMap t.item? := by
  rw [filterMap_append, filterMap_eq_nil_iff.mpr hes, append_nil, h.reports]

lemma reports_of_effect (h : Faithful t start log d) {setting : Setting} {p : Pass}
    (heffect : Service.Effect setting t d es p) : p.reports.map Report.item =
      start.reports.map Report.item ++
        ((log ++ es).filterMap LogEntry.success?).filterMap t.item? := by
  cases heffect with
  | quiet es hes => exact h.reports_of_same fun e he => (hes e he).1
  | refused i step f hphase hstep hjob => exact h.reports_of_same (by simp [LogEntry.success?])
  | rendered i step job report bench next hphase hstep hrender =>
    have hitem : t.item? i = some report.item := by
      rw [Renderer.item_of_render hrender, h.job hphase, RenderTree.nameOf_eq hstep,
        RenderTree.item?, hstep]
      rfl
    rw [Pass.commit, map_append, h.reports]
    simp [LogEntry.success?, hitem, Function.comp_def]
  | broken i step job halt bench hphase hstep hrender =>
    exact h.reports_of_same (by simp [LogEntry.success?])

/-- A node that starts takes a copy of its own component. -/
lemma job_of_rule (h : Faithful t start log d) (hd : t.Distinct) (hnamed : Named start.components)
    (ht : t.Rooted) (hledger : Ledger t start log d)
    (hcoherent : Dispatch.Coherent (s.runner request t) log d)
    (hrule : Dispatch.Rule (s.runner request t) d m es d')
    (hi : d'.phase? i = some (.running job)) : job.component.name = t.nameOf i := by
  rcases hcoherent.running_of_rule ht hrule hi with hold | ⟨-, hqueued, node, hnode, hstart⟩
  · exact h.job hold
  · obtain ⟨-, c, hc, hname⟩ := Pass.startStep_eq_ok hstart
    rw [← RenderTree.nameOf_of_node (t := t) hnode, hledger.untouched_of_unfinished hcoherent hd
      (RenderTree.lt_size_of_node hnode) (hcoherent.succeeded_not_mem hqueued rfl)] at hc
    rw [hname]
    exact hnamed _ _ hc

/-- The log of every course is faithful. -/
lemma of_course {root : Nat} {moves : List Move} (hd : t.Distinct) (hnamed : Named start.components)
    (ht : t.Rooted) (hroot : t.root? = some root)
    (h : Dispatch.Course (s.runner request t) root start moves log d) : Faithful t start log d := by
  obtain ⟨rfl, hsize⟩ := ht.root?_eq_some hroot
  refine Service.course_induction ht hroot ?_ ?_ h
  · exact initial (s.runner request t) rfl hsize
  · intro moves log d m es d' hcourse hcoherent hrule heffect ih
    constructor
    · exact ih.reports_of_effect heffect
    · exact ih.job_of_rule hd hnamed ht (.of_course ht hroot hcourse) hcoherent hrule

end Faithful

end PageRender
