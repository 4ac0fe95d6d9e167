import PageRender.Proofs.Dispatch.Outcome

/-!
# Walks that reach every node

A walk that is over without a fault has run every node once, the nodes above a node before it. No
fault can come up if the runner is successful with every node, so that such a walk runs them all.
-/

namespace PageRender

open List

namespace Walk

variable {log : List LogEntry}

lemma result_ofLog_eq_error_iff {f : Fault} :
    (Walk.ofLog log).result = .error f ↔ log.findSome? LogEntry.fault? = some f := by
  simp only [result, ofLog]
  cases log.findSome? LogEntry.fault? <;> simp

lemma result_ofLog_eq_ok_iff {completed : List Nat} : (Walk.ofLog log).result = .ok completed ↔
    (∀ i f, .failed i f ∉ log) ∧ completed = log.filterMap LogEntry.success? := by
  rw [← findSome?_fault_eq_none_iff]
  simp only [result, ofLog]
  cases log.findSome? LogEntry.fault? <;> simp [eq_comm]

end Walk

lemma RenderTree.isParentsFirst_iff {t : RenderTree} {nodes : List Nat} (h : nodes.Nodup) :
    t.isParentsFirst nodes = true ↔
      ∀ p c, c ∈ nodes → t.parent? c = some p → [p, c] <+ nodes := by
  simp only [isParentsFirst, all_eq_true, Option.all_eq_true, contains_iff_mem]
  constructor
  · intro hfirst p c hc hp
    exact (mem_takeWhile_ne_iff h hc).mp (hfirst c hc p hp)
  · intro hfirst c hc p hp
    exact (mem_takeWhile_ne_iff h hc).mpr (hfirst p c hc hp)

namespace Dispatch

variable {σ τ : Type} {r : Runner σ τ} {log : List LogEntry} {moves : List Move} {i : Nat}
  {world world' : σ}

/-- The order of completion in a walk that has reached every node: each node is there once, and
after those above it. -/
structure Complete (t : RenderTree) (completed : List Nat) : Prop where
  perm : completed.Perm (range t.size)
  above : ∀ {a c}, c < t.size → t.Above a c → [a, c] <+ completed

lemma Complete.isParentsFirst {t : RenderTree} {completed : List Nat} (ht : t.Rooted)
    (h : Complete t completed) : t.isParentsFirst completed = true := by
  rw [RenderTree.isParentsFirst_iff (h.perm.nodup_iff.mpr nodup_range)]
  intro p c hc hp
  exact h.above (mem_range.mp (h.perm.mem_iff.mp hc)) (.single ((ht.mem_children p c).mpr hp))

/-- If every node is below those planned before it, there is only one order. -/
lemma Complete.eq_range {t : RenderTree} {completed : List Nat} (h : Complete t completed)
    (habove : ∀ {a c}, a < c → c < t.size → t.Above a c) : completed = range t.size := by
  have hnodup : completed.Nodup := h.perm.nodup_iff.mpr nodup_range
  have hlt {i : Nat} (hi : i ∈ completed) : i < t.size := mem_range.mp (h.perm.mem_iff.mp hi)
  have hsorted : completed.Pairwise (· < ·) := by
    rw [pairwise_iff_forall_sublist]
    intro a b hab
    have ha : a < t.size := hlt (hab.subset mem_cons_self)
    by_contra hba
    rcases Nat.lt_or_eq_of_le (Nat.le_of_not_lt hba) with hlt' | rfl
    · exact not_pair_sublist_swap hnodup hab (h.above ha (habove hlt' ha))
    · exact not_pair_sublist_swap hnodup hab hab
  exact h.perm.eq_of_pairwise (fun a b _ _ hab hba => absurd hba (Nat.lt_asymm hab)) hsorted
    pairwise_lt_range

namespace Execution

variable {outcome : Except Fault (List Nat)}

lemma outcome_eq_ok_iff {completed : List Nat} (ht : r.tree.Rooted) (hr : r.Returns)
    (h : Execution r world moves log outcome world') : outcome = .ok completed ↔
      (∀ i f, .failed i f ∉ log) ∧ completed = log.filterMap LogEntry.success? := by
  rw [h.outcome_eq ht hr, Walk.result_ofLog_eq_ok_iff]

/-- A walk without a fault is complete. -/
theorem complete_of_ok {completed : List Nat} (ht : r.tree.Rooted) (hr : r.Returns)
    (h : Execution r world moves log (.ok completed) world') : Complete r.tree completed := by
  obtain ⟨hfail, rfl⟩ := (h.outcome_eq_ok_iff ht hr).mp rfl
  obtain ⟨d, hd, hover⟩ := h.exists_coherent ht
  have hsucceeded {i : Nat} (hi : i < r.tree.size) : .succeeded i ∈ log :=
    hd.succeeded_of_all_over ht hover (h.crashed_not_mem ht hr) hfail hi
  have hnodup : (log.filterMap LogEntry.success?).Nodup := by
    rw [nodup_iff_count_le_one]
    intro i
    rw [count_filterMap_success]
    exact hd.count_succeeded_le i
  refine ⟨(perm_ext_iff_of_nodup hnodup nodup_range).mpr fun i => ?_, fun {a c} hc ha => ?_⟩
  · rw [mem_filterMap_success, mem_range]
    exact ⟨fun hi => hd.lt_size _ hi, hsucceeded⟩
  · exact (hd.above (hsucceeded hc) ha).filterMap LogEntry.success?

lemma succeeded_of_ok {completed : List Nat} (ht : r.tree.Rooted) (hr : r.Returns)
    (h : Execution r world moves log (.ok completed) world') (hi : i < r.tree.size) :
    .succeeded i ∈ log := by
  have hcomplete := h.complete_of_ok ht hr
  obtain ⟨-, rfl⟩ := (h.outcome_eq_ok_iff ht hr).mp rfl
  exact mem_filterMap_success.mp (hcomplete.perm.mem_iff.mpr (mem_range.mpr hi))

lemma failed_not_mem (ht : r.tree.Rooted) (hr : r.Succeeds)
    (h : Execution r world moves log outcome world') (i : Nat) (f : Fault) : .failed i f ∉ log :=
  fun hf => hr.not_canFail (h.canFail_of_failed ht hr.returns hf)

end Execution

/-- However a tree has been built, whatever moves have been tried on it, and in whatever order its
nodes are run by a runner that is always successful: no node runs twice, and none before those
above it have ended; the walk cannot get stuck, nor go on for more than three moves a node; and when
it is over, every node has run, and what is returned is an order of all nodes with parents first. -/
theorem runs_every_node_once {steps : List Step} {parallel : Dict (List String)} {t : RenderTree}
    (h : RenderTree.build steps parallel = .ok t) (calls : List (Nat × Nat)) (settings : Settings)
    (start : Node → σ → Except Fault τ × σ) (finish : Node → τ → σ → Ending × σ) (world : σ)
    (hr : (Runner.mk (t.attachEach calls) settings.permits start finish).Succeeds) :
    let u := t.attachEach calls
    let r : Runner σ τ := ⟨u, settings.permits, start, finish⟩
    (∀ root moves log d, u.root? = some root → Course r root world moves log d →
      moves.length ≤ 3 * u.size ∧
      (∀ i, log.count (.started i) ≤ 1 ∧ log.count (.succeeded i) ≤ 1) ∧
      (∀ a c, .started c ∈ log → u.Above a c → [.succeeded a, .started c] <+ log) ∧
      (d.isOver root = false → ∃ m d', d.move? r m = some d') ∧
      ∃ moves' log' outcome world',
        Execution r world (moves ++ moves') (log ++ log') outcome world') ∧
    ∀ moves log outcome world', Execution r world moves log outcome world' →
      (∀ i < u.size, log.count (.started i) = 1 ∧ log.count (.succeeded i) = 1) ∧
      ∃ completed, outcome = .ok completed ∧ completed = log.filterMap LogEntry.success? ∧
        completed.Perm (range u.size) ∧
        (∀ p c, u.parent? c = some p → [p, c] <+ completed) ∧
        u.isParentsFirst completed = true := by
  intro u r
  have ht : u.Rooted := RenderTree.rooted_of_build h calls
  have hpermits : r.permits ≠ some 0 := settings.permits_ne_zero
  refine ⟨fun root moves log d hroot hcourse => ?_, fun moves log outcome world' hrun => ?_⟩
  · have hd := hcourse.coherent ht hroot
    refine ⟨?_, fun i => ⟨hd.count_started_le i, hd.count_succeeded_le i⟩,
      fun a c hc ha => hd.above hc ha, hcourse.exists_move ht hpermits hroot,
      hcourse.exists_execution ht hpermits hroot⟩
    have hle := hcourse.length_add_le ht hroot
    exact Nat.le_of_add_right_le hle
  · have hfail := hrun.failed_not_mem ht hr
    have houtcome := hrun.outcome_eq ht hr.returns
    rw [Walk.result_ofLog_eq_ok_iff.mpr ⟨hfail, rfl⟩] at houtcome
    subst houtcome
    have hcomplete := hrun.complete_of_ok ht hr.returns
    obtain ⟨d, hd, hover⟩ := hrun.exists_coherent ht
    refine ⟨fun i hi => ?_, _, rfl, rfl, hcomplete.perm, fun p c hp => ?_,
      hcomplete.isParentsFirst ht⟩
    · have hs : .succeeded i ∈ log :=
        hd.succeeded_of_all_over ht hover (hrun.crashed_not_mem ht hr.returns) hfail hi
      have hpos : 0 < log.count (.succeeded i) := count_pos_iff.mpr hs
      exact ⟨hd.count_started hi (hover (hd.dispatched_of_mem hs)),
        Nat.le_antisymm (hd.count_succeeded_le i) hpos⟩
    · exact hcomplete.above (RenderTree.lt_size_of_parent hp)
        (.single ((ht.mem_children p c).mpr hp))

/-- With one permit and a group of two, a walk comes to its end and returns all four nodes. -/
theorem runs_every_node_once_group :
    ∃ t, RenderTree.build (["filter", "list", "chart", "footer"].map Step.plain)
        (.ofList [("filter", ["list", "chart"])]) = .ok t ∧
      let r := Runner.recorder (t.attachEach [(0, 3), (3, 0)]) { maxParallel := some 1 } []
      r.Succeeds ∧ ∃ moves log completed world',
        Execution r [] moves log (.ok completed) world' ∧ completed.Perm [0, 1, 2, 3] := by
  obtain ⟨t, ht⟩ : ∃ t, RenderTree.build (["filter", "list", "chart", "footer"].map Step.plain)
      (.ofList [("filter", ["list", "chart"])]) = .ok t :=
    exists_ok_of_toBool (by decide +kernel)
  have hr : (Runner.recorder (t.attachEach [(0, 3), (3, 0)])
      { maxParallel := some 1 } []).Succeeds :=
    ⟨fun node world => ⟨(), rfl⟩, fun node job world => by simp [Runner.recorder]⟩
  have hsize : (t.attachEach [(0, 3), (3, 0)]).size = 4 := by
    rw [(RenderTree.moves_attachEach t _).size_eq, RenderTree.size_build ht]
    rfl
  have hroot : (t.attachEach [(0, 3), (3, 0)]).root? = some 0 := by
    rw [(RenderTree.rooted_of_build ht _).root?_eq, hsize]
    rfl
  obtain ⟨hcourses, hends⟩ := runs_every_node_once ht _ _ _ _ [] hr
  obtain ⟨-, -, -, -, moves, log, outcome, world', hrun⟩ := hcourses 0 [] _ _ hroot .initial
  obtain ⟨-, completed, rfl, -, hperm, -, -⟩ := hends _ _ _ _ hrun
  rw [hsize] at hperm
  exact ⟨t, ht, hr, _, _, completed, world', hrun, hperm⟩

end Dispatch

end PageRender
