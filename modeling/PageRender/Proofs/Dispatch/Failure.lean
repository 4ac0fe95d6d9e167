import PageRender.Proofs.Dispatch.Completion

/-!
# Walks with failures

After the first failure of a walk nothing is dispatched any more, but what has been dispatched until
then still runs to its end. The first failure is what the walk returns.
-/

namespace PageRender

open List

namespace Dispatch

variable {σ τ : Type} {r : Runner σ τ} {log : List LogEntry} {i : Nat}

lemma Coherent.started_iff_dispatched {d : Dispatch σ τ} (h : Coherent r log d)
    (hover : ∀ {i}, .dispatched i ∈ log → d.isOver i = true) :
    .started i ∈ log ↔ .dispatched i ∈ log := by
  refine ⟨fun hi => h.dispatched_of_mem hi, fun hi => count_pos_iff.mp ?_⟩
  rw [h.count_started (h.lt_size_of_dispatched hi) (hover hi)]
  exact Nat.one_pos

/-- However a tree has been built and in whatever order its nodes are run, if every run comes back:
the walk comes to its end; it returns a fault exactly if some node has failed, and then that of the
first one that has; nothing is dispatched after a failure; what has been dispatched runs once, to
its end; and what runs is the root and the children of those nodes that have succeeded before the
first failure. -/
theorem first_failure_ends_dispatching {steps : List Step} {parallel : Dict (List String)}
    {t : RenderTree} (h : RenderTree.build steps parallel = .ok t) (settings : Settings)
    (start : Node → σ → Except Fault τ × σ) (finish : Node → τ → σ → Ending × σ) (world : σ)
    (hr : (Runner.mk t settings.permits start finish).Returns) :
    let r : Runner σ τ := ⟨t, settings.permits, start, finish⟩
    (∀ root moves log d, t.root? = some root → Course r root world moves log d →
      ∃ moves' log' outcome world',
        Execution r world (moves ++ moves') (log ++ log') outcome world') ∧
    ∀ moves log outcome world', Execution r world moves log outcome world' →
      moves.length ≤ 3 * t.size ∧
      ((∃ f, outcome = .error f) ↔ ∃ i f, .failed i f ∈ log) ∧
      (∀ f, outcome = .error f ↔ ∃ i before after,
        log = before ++ .failed i f :: after ∧ ∀ j g, .failed j g ∉ before) ∧
      (∀ i f, .failed i f ∈ log → r.CanFail i f) ∧
      (∀ i f c, ¬[.failed i f, .dispatched c] <+ log) ∧
      (∀ i, .dispatched i ∈ log →
        log.count (.started i) = 1 ∧ (log.countP fun e => e.node = i && e.isEnd) = 1) ∧
      ∀ i, .started i ∈ log ↔
        t.root? = some i ∨ ∃ p, .succeeded p ∈ sound log ∧ i ∈ t.children p := by
  intro r
  have ht : t.Rooted := RenderTree.rooted_of_build h []
  have hpermits : r.permits ≠ some 0 := settings.permits_ne_zero
  refine ⟨fun root moves log d hroot hcourse => hcourse.exists_execution ht hpermits hroot,
    fun moves log outcome world' hrun => ?_⟩
  have houtcome (f : Fault) : outcome = .error f ↔ log.findSome? LogEntry.fault? = some f := by
    rw [hrun.outcome_eq ht hr, Walk.result_ofLog_eq_error_iff]
  obtain ⟨d, hd, hover⟩ := hrun.exists_coherent ht
  have hcrash := hrun.crashed_not_mem ht hr
  refine ⟨hrun.length_le ht, ?_, fun f => ?_, fun i f hf => hrun.canFail_of_failed ht hr hf,
    fun i f c => hd.last_dispatch, fun i hi => ?_, fun i => ?_⟩
  · simp only [houtcome, ← Option.ne_none_iff_exists', ne_eq, findSome?_fault_eq_none_iff]
    simp
  · rw [houtcome, findSome?_fault_eq_some_iff]
  · have hlt : i < t.size := hd.lt_size_of_dispatched hi
    exact ⟨hd.count_started hlt (hover hi), hd.countP_isEnd hlt (hover hi) (hcrash i)⟩
  · rw [hd.started_iff_dispatched hover]
    exact hd.dispatched_iff_root_or_child ht

/-- Of two nodes that are dispatched together the first one fails, and the second one still runs. -/
theorem first_failure_ends_dispatching_siblings :
    ∃ t, RenderTree.build (["a", "b", "c"].map Step.plain) (.ofList [("a", ["b", "c"])]) = .ok t ∧
      let r := Runner.recorder t {} ["b"]
      r.Returns ∧ ∃ moves log,
        Execution r [] moves log (.error (.handlerFailed "b" "boom")) ["a", "c"] ∧
        ∃ i before after, log = before ++ .failed i (.handlerFailed "b" "boom") :: after ∧
          ∀ j g, .failed j g ∉ before := by
  obtain ⟨t, ht⟩ : ∃ t, RenderTree.build (["a", "b", "c"].map Step.plain)
      (.ofList [("a", ["b", "c"])]) = .ok t :=
    exists_ok_of_toBool (by decide +kernel)
  have hrun : (RenderTree.build (["a", "b", "c"].map Step.plain)
      (.ofList [("a", ["b", "c"])])).toOption.map (fun t => run (Runner.recorder t {} ["b"]) []) =
      some (.error (.handlerFailed "b" "boom"), ["a", "c"]) := by
    decide +kernel
  have hr : (Runner.recorder t {} ["b"]).Returns := Runner.recorder_returns t {} ["b"]
  obtain ⟨moves, log, hexec⟩ := exists_execution_run (r := Runner.recorder t {} ["b"])
    (RenderTree.rooted_of_build ht []) (Settings.permits_ne_zero {}) []
  rw [ht] at hrun
  have hresult : run (Runner.recorder t {} ["b"]) [] =
      (.error (.handlerFailed "b" "boom"), ["a", "c"]) := Option.some.inj hrun
  rw [hresult] at hexec
  have hfirst := (first_failure_ends_dispatching ht {} _ _ [] hr).2 _ _ _ _ hexec
  exact ⟨t, ht, hr, moves, log, hexec, (hfirst.2.2.1 _).mp rfl⟩

end Dispatch

end PageRender
