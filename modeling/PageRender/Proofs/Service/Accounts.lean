import Mathlib.Algebra.GroupWithZero.Nat
import PageRender.Proofs.Service.Atomicity

/-!
# The accounts of a pass

Counts, reports and the list of what has rendered are kept separately, but they agree at any time
with each other and with the log: one report and one component for every node that has succeeded,
and one failure for every run that has ended with a fault. Since every node runs once at most, no
more is counted than was planned, and a response counts all of it.
-/

namespace PageRender

open List

/-- How many bindings the step of a node has. -/
def RenderTree.bindingCount (t : RenderTree) (i : Nat) : Nat :=
  ((t.step? i).map fun step => step.bindings.length).getD 0

lemma RenderTree.bindingCount_eq {t : RenderTree} {i : Nat} {step : Step}
    (h : t.step? i = some step) : t.bindingCount i = step.bindings.length := by
  simp [bindingCount, h]

/-- The bindings of all nodes together are those of the steps. -/
lemma RenderTree.map_bindingCount {t : RenderTree} {steps : List Step}
    {parallel : Dict (List String)} (h : build steps parallel = .ok t) :
    (range t.size).map t.bindingCount = steps.map fun step => step.bindings.length := by
  refine ext_getElem (by simp [size_build h]) fun i hi hi' => ?_
  rw [getElem_map, getElem_map, getElem_range]
  refine bindingCount_eq ?_
  rw [step?_build h, getElem?_eq_getElem]

namespace LogEntry

/-- Whether the run of a node has ended well. -/
def isSuccess (e : LogEntry) : Bool :=
  e.success?.isSome

/-- Whether the run of a node has ended with a fault. -/
def isFailure (e : LogEntry) : Bool :=
  e.fault?.isSome

lemma countP_isSuccess {log : List LogEntry} :
    log.countP isSuccess = (log.filterMap success?).length :=
  length_filterMap_eq_countP.symm

end LogEntry

namespace Dispatch

variable {σ τ : Type} {r : Runner σ τ} {d : Dispatch σ τ} {log es : List LogEntry} {i : Nat}

lemma countP_isEnd_le_of_story {phase : Phase τ} (h : Story i phase es) (hcrash : .crashed i ∉ es) :
    es.countP LogEntry.isEnd ≤ 1 := by
  cases h with
  | crashed n => simp at hcrash
  | _ => simp [countP_cons, LogEntry.isEnd]

/-- Without crashes, no more runs have ended than there are nodes. -/
lemma Coherent.countP_isEnd_le (h : Coherent r log d) (hcrash : ∀ i, .crashed i ∉ log) :
    log.countP LogEntry.isEnd ≤ r.tree.size := by
  have hnodup : ((log.filter LogEntry.isEnd).map LogEntry.node).Nodup := by
    refine nodup_iff_count_le_one.mpr fun i => ?_
    have hcount : ((log.filter LogEntry.isEnd).map LogEntry.node).count i =
        (about log i).countP LogEntry.isEnd := by
      rw [countP_about, count, countP_map, countP_filter]
      rfl
    rw [hcount]
    by_cases hi : i < r.tree.size
    · obtain ⟨phase, -, hstory⟩ := h.exists_story hi
      exact countP_isEnd_le_of_story hstory fun hmem => hcrash i (mem_about.mp hmem).1
    · rw [about_eq_nil fun e he hei => hi (hei.symm.trans_lt (h.lt_size e he))]
      exact Nat.zero_le _
  have hsubset : (log.filter LogEntry.isEnd).map LogEntry.node ⊆ range r.tree.size := by
    intro i hi
    obtain ⟨e, he, rfl⟩ := mem_map.mp hi
    exact mem_range.mpr (h.lt_size e (mem_filter.mp he).1)
  calc log.countP LogEntry.isEnd
      = ((log.filter LogEntry.isEnd).map LogEntry.node).length := by
        rw [length_map, countP_eq_length_filter]
    _ ≤ (range r.tree.size).length := (subperm_of_subset hnodup hsubset).length_le
    _ = r.tree.size := length_range

/-- Without crashes, a run ends well or with a fault. -/
lemma countP_isEnd_eq (hcrash : ∀ i, .crashed i ∉ log) : log.countP LogEntry.isEnd =
    log.countP LogEntry.isSuccess + log.countP LogEntry.isFailure := by
  induction log with
  | nil => rfl
  | cons e log ih =>
    have hlog := ih fun i hi => hcrash i (mem_cons_of_mem e hi)
    cases e with
    | crashed i => exact absurd mem_cons_self (hcrash i)
    | succeeded i =>
      rw [countP_cons_of_pos rfl, countP_cons_of_pos rfl, countP_cons_of_neg Bool.false_ne_true,
        hlog]
      omega
    | failed i f =>
      rw [countP_cons_of_pos rfl, countP_cons_of_neg Bool.false_ne_true, countP_cons_of_pos rfl,
        hlog]
      omega
    | _ => exact hlog

end Dispatch

/-- The counts of a pass, its reports and what has rendered agree with a log. -/
structure Accounts (t : RenderTree) (log : List LogEntry) (p : Pass) : Prop where
  planned : p.tally.planned = t.size
  rendered : p.tally.rendered = p.reports.countP fun report => report.visible
  skipped : p.tally.skipped = p.reports.countP fun report => !report.visible
  nodup : p.rendered.Nodup
  length_rendered : p.rendered.length = p.reports.length
  succeeded : p.reports.length = log.countP LogEntry.isSuccess
  failed : p.tally.failed = log.countP LogEntry.isFailure
  bindings : p.tally.bindings = ((log.filterMap LogEntry.success?).map t.bindingCount).sum

namespace Accounts

variable {s : Service} {request : Request} {t : RenderTree} {start p q : Pass}
  {log es : List LogEntry} {d : Dispatch Pass Pass.Job} {moves : List Move} {root i : Nat}
  {step : Step}

/-- Something happens in which no run ends. -/
lemma quiet (h : Accounts t log p) (hes : ∀ e ∈ es, e.success? = none ∧ e.fault? = none) :
    Accounts t (log ++ es) p := by
  have hsuccess : es.countP LogEntry.isSuccess = 0 :=
    countP_eq_zero.mpr fun e he => by simp [LogEntry.isSuccess, (hes e he).1]
  have hfailure : es.countP LogEntry.isFailure = 0 :=
    countP_eq_zero.mpr fun e he => by simp [LogEntry.isFailure, (hes e he).2]
  have hnone : es.filterMap LogEntry.success? = [] :=
    filterMap_eq_nil_iff.mpr fun e he => (hes e he).1
  refine { h with succeeded := ?_, failed := ?_, bindings := ?_ }
  · rw [countP_append, hsuccess, h.succeeded, Nat.add_zero]
  · rw [countP_append, hfailure, h.failed, Nat.add_zero]
  · rw [filterMap_append, hnone, append_nil, h.bindings]

/-- A run ends with a fault. -/
lemma fail (h : Accounts t log p) (hfailed : p.Failed q) (f : Fault) :
    Accounts t (log ++ [.failed i f]) q where
  planned := by rw [hfailed.tally, h.planned]
  rendered := by rw [hfailed.tally, hfailed.reports, h.rendered]
  skipped := by rw [hfailed.tally, hfailed.reports, h.skipped]
  nodup := by
    rw [hfailed.rendered]
    exact h.nodup
  length_rendered := by rw [hfailed.rendered, hfailed.reports, h.length_rendered]
  succeeded := by
    rw [hfailed.reports, h.succeeded, countP_append]
    rfl
  failed := by
    rw [hfailed.tally, countP_append, ← h.failed]
    rfl
  bindings := by
    rw [hfailed.tally, h.bindings, filterMap_append]
    simp [LogEntry.success?, filterMap_cons]

/-- A run ends well, for the first time with its component. -/
lemma succeed (h : Accounts t log p) {c : Component} {report : Report} {board : Blackboard}
    (hstep : t.step? i = some step) (hnew : step.name ∉ p.rendered) :
    Accounts t (log ++ [.succeeded i]) ({ p with blackboard := board }.commit step c report) := by
  have htally := Pass.tally_commit { p with blackboard := board } step c report
  have hrendered : ({ p with blackboard := board }.commit step c report).rendered =
      p.rendered ++ [step.name] := if_neg hnew
  have hreports : ({ p with blackboard := board }.commit step c report).reports =
      p.reports ++ [report] := rfl
  constructor
  · rw [htally, h.planned]
  · rw [htally, hreports, countP_append, ← h.rendered, countP_singleton]
  · rw [htally, hreports, countP_append, ← h.skipped, countP_singleton]
    cases report.visible <;> rfl
  · rw [hrendered, ← concat_eq_append, nodup_concat]
    exact ⟨hnew, h.nodup⟩
  · rw [hrendered, hreports, length_append, length_append, h.length_rendered]
    rfl
  · rw [hreports, length_append, countP_append, h.succeeded]
    rfl
  · rw [htally, countP_append, ← h.failed]
    rfl
  · rw [htally, filterMap_append, map_append, sum_append, ← h.bindings]
    simp [LogEntry.success?, RenderTree.bindingCount_eq hstep]

/-- Whatever a move does to a pass, its accounts keep up with the log. -/
lemma of_effect (h : Accounts t log d.world) (hb : Beginning t root start)
    (hcourse : Dispatch.Course (s.runner request t) root start moves log d)
    (heffect : Service.Effect (s.setting request) t d es q) : Accounts t (log ++ es) q := by
  have hcoherent := hb.coherent hcourse
  cases heffect with
  | quiet es hes => exact h.quiet hes
  | refused i step f hphase hstep hjob =>
    rw [← singleton_append, ← append_assoc]
    exact (h.quiet (by simp [LogEntry.success?, LogEntry.fault?])).fail Pass.failed_countFailure f
  | rendered i step job report bench next hphase hstep hrender =>
    have hlt := hcoherent.lt_size_of_dispatched (hcoherent.dispatched_of_phase hphase (by simp))
    have hnew := (hb.ledger hcourse).not_rendered_of_unfinished hcoherent hb.distinct
      hb.rendered_eq hlt (hcoherent.succeeded_not_mem hphase rfl)
    rw [RenderTree.nameOf_eq hstep] at hnew
    rw [← singleton_append, ← append_assoc]
    exact (h.succeed hstep hnew).quiet (by simp [LogEntry.success?, LogEntry.fault?])
  | broken i step job halt bench hphase hstep hrender => exact h.fail Pass.failed_countFailure _

lemma of_course (hstart : Accounts t [] start) (hb : Beginning t root start)
    (h : Dispatch.Course (s.runner request t) root start moves log d) :
    Accounts t log d.world := by
  refine Service.course_induction (P := fun log d => Accounts t log d.world) hb.rooted hb.root?_eq
    ?_ ?_ h
  · rw [← nil_append [LogEntry.dispatched root]]
    exact hstart.quiet (by simp [LogEntry.success?, LogEntry.fault?])
  · intro moves log d m es d' hcourse _ _ heffect ih
    exact ih.of_effect hb hcourse heffect

lemma of_execution {ready : Service.Ready} {outcome : Except Fault (List Nat)}
    (hready : s.ready request = .ok ready) (hstart : Accounts ready.tree [] ready.pass)
    (h : Dispatch.Execution (s.runner request ready.tree) ready.pass moves log outcome p) :
    Accounts ready.tree log p := by
  cases h with
  | empty _ => exact hstart
  | ended hroot hcourse _ =>
    exact hstart.of_course (Service.beginning_of_ready hready hroot) hcourse

lemma shown_add_hidden (h : Accounts t log p) :
    p.tally.rendered + p.tally.skipped = p.reports.length := by
  rw [h.rendered, h.skipped, length_eq_countP_add_countP fun report : Report => report.visible]
  simp

/-- What is counted as finished are the runs that have ended. -/
lemma finished_eq (h : Accounts t log p) (hcrash : ∀ i, .crashed i ∉ log) :
    p.tally.rendered + p.tally.skipped + p.tally.failed = log.countP LogEntry.isEnd := by
  rw [h.shown_add_hidden, h.succeeded, h.failed, Dispatch.countP_isEnd_eq hcrash]

/-- When a walk has come to a good end, all that was planned has been counted. -/
lemma full {steps : List Step} {parallel : Dict (List String)} {completed : List Nat}
    (h : Accounts t log p) (hbuild : RenderTree.build steps parallel = .ok t)
    (hrun : Dispatch.Execution (s.runner request t) start moves log (.ok completed) p) :
    p.tally.failed = 0 ∧ p.tally.rendered + p.tally.skipped = p.tally.planned ∧
      p.tally.planned = p.reports.length ∧ p.tally.planned = steps.length ∧
      p.tally.bindings = (steps.map fun step => step.bindings.length).sum := by
  have ht : t.Rooted := RenderTree.rooted_of_build hbuild []
  have hreturns := s.runner_returns request t
  have hperm : (log.filterMap LogEntry.success?).Perm (range t.size) := by
    have hcomplete := hrun.complete_of_ok ht hreturns
    rw [((hrun.outcome_eq_ok_iff ht hreturns).mp rfl).2] at hcomplete
    exact hcomplete.perm
  obtain ⟨hfail, rfl⟩ := (hrun.outcome_eq_ok_iff ht hreturns).mp rfl
  have hlength : p.reports.length = t.size := by
    rw [h.succeeded, LogEntry.countP_isSuccess, hperm.length_eq, length_range]
  refine ⟨?_, ?_, ?_, h.planned.trans (RenderTree.size_build hbuild), ?_⟩
  · rw [h.failed, countP_eq_zero]
    intro e he
    cases e with
    | failed i f => exact absurd he (hfail i f)
    | _ => exact Bool.false_ne_true
  · rw [h.shown_add_hidden, hlength, h.planned]
  · rw [hlength, h.planned]
  · rw [h.bindings, (hperm.map t.bindingCount).sum_eq, RenderTree.map_bindingCount hbuild]

end Accounts

namespace Service

variable {s : Service} {request : Request} {ready : Ready}

lemma accounts_of_ready (h : s.ready request = .ok ready) : Accounts ready.tree [] ready.pass := by
  obtain ⟨prepared, -, hbuild, hready⟩ := exists_prepared_of_ready h
  have hpass : ready.pass = (Prepared.begin prepared ready.tree).pass := congrArg Ready.pass hready
  rw [hpass]
  exact {
    planned := (RenderTree.size_build hbuild).symm
    rendered := rfl
    skipped := rfl
    nodup := nodup_nil
    length_rendered := rfl
    succeeded := rfl
    failed := rfl
    bindings := rfl }

/-- In every state that a pass may come to, the counts are right: of the reports those that show and
those that do not, together as many as there are components that have rendered; of the runs those
that have ended with a fault; and the bindings of those that have ended well. What has been counted
is what has ended, and never more than planned, so that the rest has not been reached. A response
counts no failure, and everything that was planned. -/
theorem tally_accounts_for_plan (s : Service) (request : Request) :
    (∀ ready root moves log d, s.ready request = .ok ready → ready.tree.root? = some root →
      Dispatch.Course (s.runner request ready.tree) root ready.pass moves log d →
      let pass := d.world
      let tally := pass.tally
      tally.planned = ready.tree.size ∧
      tally.rendered = pass.reports.countP (fun report => report.visible) ∧
      tally.skipped = pass.reports.countP (fun report => !report.visible) ∧
      pass.rendered.Nodup ∧ tally.rendered + tally.skipped = pass.rendered.length ∧
      tally.failed = log.countP LogEntry.isFailure ∧
      tally.bindings = ((log.filterMap LogEntry.success?).map ready.tree.bindingCount).sum ∧
      tally.rendered + tally.skipped + tally.failed = log.countP LogEntry.isEnd ∧
      log.countP LogEntry.isEnd ≤ tally.planned ∧
      tally.notReached + log.countP LogEntry.isEnd = tally.planned) ∧
    ∀ response, s.Answers request (.ok response) → ∃ prepared,
      s.prepare request = .ok prepared ∧ response.tally.failed = 0 ∧
      response.tally.rendered + response.tally.skipped = response.tally.planned ∧
      response.tally.planned = response.reports.length ∧
      response.tally.planned = prepared.plan.steps.length ∧
      response.tally.bindings = (prepared.plan.steps.map fun step => step.bindings.length).sum := by
  refine ⟨fun ready root moves log d hready hroot hcourse => ?_, fun response h => ?_⟩
  · have hb := beginning_of_ready hready hroot
    have h := (accounts_of_ready hready).of_course hb hcourse
    have hcrash := hcourse.crashed_not_mem (r := s.runner request ready.tree) hb.rooted hb.root?_eq
      (s.runner_returns request ready.tree)
    have hfinished := h.finished_eq hcrash
    have hle : log.countP LogEntry.isEnd ≤ d.world.tally.planned :=
      ((hb.coherent hcourse).countP_isEnd_le hcrash).trans_eq h.planned.symm
    refine ⟨h.planned, h.rendered, h.skipped, h.nodup, ?_, h.failed, h.bindings, hfinished, hle, ?_⟩
    · rw [h.shown_add_hidden, h.length_rendered]
    · rw [Tally.notReached, Tally.completed]
      omega
  · generalize hanswer : (Except.ok response : Except Halt Response) = answer at h
    cases h with
    | refused f hready => cases hanswer
    | overloaded ready p hready hload => cases hanswer
    | ended ready moves log outcome pass hready hload hrun =>
      obtain ⟨-, completed, rfl, rfl⟩ := answer_eq_ok_iff.mp (mapError_eq_ok_iff.mp hanswer.symm)
      obtain ⟨prepared, hprepared, hbuild, -⟩ := exists_prepared_of_ready hready
      have h := (accounts_of_ready hready).of_execution hready hrun
      refine ⟨prepared, hprepared, ?_⟩
      exact h.full hbuild hrun

/-- A list that breaks down is counted as a failure, and the head that has rendered before it as one
that shows; the foot has not been reached. In the page where nothing breaks down all is counted,
with the binding of the list. -/
theorem tally_accounts_for_plan_colors :
    (∃ ready log d, Service.broken.ready .colors = .ok ready ∧
      Dispatch.Course (Service.broken.runner .colors ready.tree) 0 ready.pass
        [.start 0, .settle 0, .start 1, .settle 1] log d ∧
      d.world.tally.rendered + d.world.tally.skipped = d.world.rendered.length ∧
      d.world.tally.failed = 1 ∧ log.countP LogEntry.isEnd = 2 ∧ d.world.tally.notReached = 1) ∧
    ∃ response, Service.colors.Answers .colors (.ok response) ∧ response.tally.failed = 0 ∧
      response.tally.planned = response.reports.length ∧ response.tally.bindings = 1 := by
  constructor
  · obtain ⟨ready, hready⟩ : ∃ ready, Service.broken.ready .colors = .ok ready :=
      exists_ok_of_toBool (by decide +kernel)
    have hroot := of_any_toOption hready (P := fun ready => ready.tree.root? == some 0)
      (by decide +kernel)
    have hmoves := of_any_toOption hready (P := fun ready =>
      ((Dispatch.initial (Service.broken.runner .colors ready.tree) 0 ready.pass).replay
        (Service.broken.runner .colors ready.tree)
        [.start 0, .settle 0, .start 1, .settle 1]).any fun d =>
          d.world.tally == { planned := 3, rendered := 1, failed := 1 })
      (by decide +kernel)
    obtain ⟨d, hd, htally⟩ := (Option.any_eq_true _ _).mp hmoves
    rw [beq_iff_eq] at htally
    obtain ⟨log, hcourse⟩ := Dispatch.exists_course_of_replay hd
    obtain ⟨hstates, -⟩ := tally_accounts_for_plan Service.broken .colors
    obtain ⟨-, -, -, -, hrendered, -, -, hended, -, -⟩ :=
      hstates ready 0 _ log d hready (beq_iff_eq.mp hroot) hcourse
    refine ⟨ready, log, d, hready, hcourse, hrendered, ?_, ?_, ?_⟩
    · rw [htally]
    · rw [← hended, htally]
      rfl
    · rw [htally]
      rfl
  · obtain ⟨response, hresponse, hbindings⟩ := exists_of_any_toOption
      (x := Service.colors.render .colors) (P := fun response => response.tally.bindings == 1)
      (by decide +kernel)
    have hanswer := Service.colors.answers_render .colors
    rw [hresponse] at hanswer
    obtain ⟨-, hresponses⟩ := tally_accounts_for_plan Service.colors .colors
    obtain ⟨prepared, -, hfailed, -, hreports, -⟩ := hresponses response hanswer
    exact ⟨response, hanswer, hfailed, hreports, beq_iff_eq.mp hbindings⟩

end Service

end PageRender
