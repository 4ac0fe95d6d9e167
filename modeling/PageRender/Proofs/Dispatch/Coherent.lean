import PageRender.Proofs.Dispatch.Course
import PageRender.Proofs.RenderTree.Rooted

/-!
# Coherent states of a walk

The log of a course tells where everything stands: the bookkeeping is what the log amounts to, and
the unit of every node has gone through its stages in their order. A node is dispatched when its
parent has succeeded, provided that no fault has been recorded until then, and a unit is over only
when those of its children are.
-/

namespace PageRender

open List

namespace Dispatch

variable {σ τ : Type} {r : Runner σ τ} {d d' : Dispatch σ τ} {log es : List LogEntry}
  {m : Move} {i p c : Nat}

/-- The state of a walk agrees with its log, and both with the tree. -/
structure Coherent (r : Runner σ τ) (log : List LogEntry) (d : Dispatch σ τ) : Prop where
  size_eq : d.phases.size = r.tree.size
  lt_size : ∀ e ∈ log, e.node < r.tree.size
  walk_eq : d.walk = .ofLog log
  story : ∀ {i phase}, d.phase? i = some phase → Story i phase (about log i)
  joining : ∀ {i children}, d.phase? i = some (.joining children) →
    children = r.tree.children i ∧ ∀ c ∈ children, .dispatched c ∈ log
  children_over : ∀ {p c}, r.tree.parent? c = some p → .dispatched c ∈ log →
    d.isOver p = true → d.isOver c = true
  /-- Whatever happens to a node happens after all nodes above it have succeeded. -/
  above : ∀ {a} {e : LogEntry}, e ∈ log → r.tree.Above a e.node → [.succeeded a, e] <+ log
  dispatched_iff : ∀ {c}, .dispatched c ∈ log ↔ c < r.tree.size ∧
    (c = 0 ∨ ∃ p, r.tree.parent? c = some p ∧ .succeeded p ∈ sound log)
  last_dispatch : ∀ {i f c}, ¬[.failed i f, .dispatched c] <+ log

namespace Coherent

lemma lt_size_of_dispatched (h : Coherent r log d) (hi : .dispatched i ∈ log) : i < r.tree.size :=
  h.lt_size _ hi

lemma succeeded_of_above (h : Coherent r log d) {a : Nat} (hc : .dispatched c ∈ log)
    (ha : r.tree.Above a c) : .succeeded a ∈ log :=
  (h.above hc ha).subset mem_cons_self

/-- A unit that has left the stage of being idle has been dispatched. -/
lemma dispatched_of_phase (h : Coherent r log d) {phase : Phase τ}
    (hphase : d.phase? i = some phase) (hidle : phase ≠ .idle) : .dispatched i ∈ log :=
  (mem_about.mp ((h.story hphase).dispatched_mem hidle)).1

lemma succeeded_not_mem (h : Coherent r log d) {phase : Phase τ} (hphase : d.phase? i = some phase)
    (hbusy : (phase.isQueued || phase.isRunning) = true) : .succeeded i ∉ log :=
  fun hmem => (h.story hphase).succeeded_not_mem hbusy (mem_about.mpr ⟨hmem, rfl⟩)

lemma dispatched_not_mem_of_child (h : Coherent r log d) (hc : c ∈ r.tree.children i)
    (hi : .succeeded i ∉ log) : .dispatched c ∉ log :=
  fun hmem => hi (h.succeeded_of_above hmem (.single hc))

lemma phase_idle (h : Coherent r log d) {phase : Phase τ} (hphase : d.phase? i = some phase)
    (hi : .dispatched i ∉ log) : phase = .idle := by
  by_contra hidle
  exact hi (h.dispatched_of_phase hphase hidle)

lemma dispatched_not_mem_of_idle (h : Coherent r log d) (hphase : d.phase? i = some .idle) :
    .dispatched i ∉ log := by
  intro hi
  have hmem : .dispatched i ∈ about log i := mem_about.mpr ⟨hi, rfl⟩
  rw [(h.story hphase).eq_nil] at hmem
  cases hmem

lemma about_of_not_dispatched (h : Coherent r log d) (hi : .dispatched i ∉ log) :
    about log i = [] := by
  by_cases hlt : i < d.phases.size
  · have hphase : d.phase? i = some d.phases[i] := Array.getElem?_eq_getElem hlt
    have hstory := h.story hphase
    rw [h.phase_idle hphase hi] at hstory
    exact hstory.eq_nil
  · refine about_eq_nil fun e he hei => hlt ?_
    rw [h.size_eq, ← hei]
    exact h.lt_size e he

lemma exists_phase (h : Coherent r log d) (hi : i < r.tree.size) :
    ∃ phase, d.phase? i = some phase := by
  rw [← h.size_eq] at hi
  exact ⟨_, Array.getElem?_eq_getElem hi⟩

end Coherent

/-! ### The bookkeeping -/

lemma walk_fail (h : d.walk = .ofLog log) (f : Fault) :
    d.walk.fail f = .ofLog (log ++ [.failed i f]) := by
  rw [h, Walk.fail, Walk.ofLog, Walk.ofLog, filterMap_append, filterMap_append, findSome?_append]
  cases log.findSome? LogEntry.fault? <;>
    simp [LogEntry.dispatch?, LogEntry.success?, LogEntry.fault?]

lemma walk_noticeCrashes (h : d.walk = .ofLog log) (nodes : List Nat) :
    (d.noticeCrashes nodes).walk =
      .ofLog (log ++ (d.crashedAmong nodes).map fun c => .failed c (crashFault c)) := by
  rw [noticeCrashes, ← crashedAmong]
  generalize d.crashedAmong nodes = crashed
  induction crashed generalizing d log with
  | nil => simpa using h
  | cons c crashed ih =>
    rw [foldl_cons, ih (walk_fail (i := c) h (crashFault c)), map_cons, append_assoc,
      singleton_append]

lemma walk_complete_eq (h : d.walk = .ofLog log) (w : σ) :
    ({ d with world := w }.complete r i).walk =
      .ofLog (log ++ .succeeded i :: (d.wave r i).map .dispatched) := by
  rw [walk_complete]
  change (d.walk.complete r.tree i).1 = _
  cases hf : d.walk.fault with
  | some f =>
    rw [wave, Walk.complete_of_some hf]
    simp [h, Walk.ofLog, LogEntry.dispatch?, LogEntry.success?, LogEntry.fault?]
  | none =>
    rw [wave, Walk.complete_of_none hf]
    generalize r.tree.renderable i _ _ = next
    have hnext : (next.map LogEntry.dispatched).findSome? LogEntry.fault? = none := by
      simp [findSome?_eq_none_iff, LogEntry.fault?]
    simp [h, Walk.ofLog, LogEntry.dispatch?, LogEntry.success?, LogEntry.fault?, filterMap_cons,
      findSome?_cons, hnext, Function.comp_def]

lemma Rule.walk_eq (hrule : Rule r d m es d') (h : d.walk = .ofLog log) :
    d'.walk = .ofLog (log ++ es) := by
  cases hrule with
  | launch i node job w =>
    change d.walk = _
    simp [h, Walk.ofLog, LogEntry.dispatch?, LogEntry.success?, LogEntry.fault?]
  | refuse i node f w =>
    have hstart : d.walk = .ofLog (log ++ [.started i]) := by
      simp [h, Walk.ofLog, LogEntry.dispatch?, LogEntry.success?, LogEntry.fault?]
    exact (walk_fail (i := i) hstart f).trans (by simp)
  | succeed i node job w => exact walk_complete_eq h w
  | fail i node job f w => exact walk_fail h f
  | crash i node job p w =>
    change d.walk = _
    simp [h, Walk.ofLog, LogEntry.dispatch?, LogEntry.success?, LogEntry.fault?]
  | join i children =>
    change (d.noticeCrashes children).walk = _
    rw [walk_noticeCrashes h]
    simp [Walk.ofLog, LogEntry.dispatch?, LogEntry.success?, LogEntry.fault?]

end Dispatch

end PageRender
