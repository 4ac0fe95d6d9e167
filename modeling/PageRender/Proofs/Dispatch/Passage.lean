import PageRender.Proofs.Dispatch.Preserve

/-!
# Passages of a walk

The states that a walk goes through. A series of moves from the start of a walk leads to one state
only, so that it can be cut at any move: what comes before is a course of its own, and what comes
after goes on from there.
-/

namespace PageRender

open List

namespace Dispatch

variable {σ τ : Type} {r : Runner σ τ} {d d' : Dispatch σ τ} {moves rest : List Move} {m : Move}
  {log es : List LogEntry} {world : σ} {root i : Nat}

/-- Take moves one after the other, if all of them are possible. -/
def replay (r : Runner σ τ) (d : Dispatch σ τ) (moves : List Move) : Option (Dispatch σ τ) :=
  moves.foldlM (fun d m => d.move? r m) d

/-- One of the moves of a walk leads from one state to another. -/
def Through (r : Runner σ τ) (world : σ) (moves : List Move) (m : Move) (d d' : Dispatch σ τ) :
    Prop :=
  ∃ root before after, r.tree.root? = some root ∧ moves = before ++ m :: after ∧
    (initial r root world).replay r before = some d ∧ d.move? r m = some d'

lemma replay_append : d.replay r (moves ++ rest) = (d.replay r moves).bind (·.replay r rest) :=
  foldlM_append

lemma replay_cons : d.replay r (m :: moves) = (d.move? r m).bind (·.replay r moves) :=
  foldlM_cons

lemma Course.replay (h : Course r root world moves log d) :
    (Dispatch.initial r root world).replay r moves = some d := by
  induction h with
  | initial => rfl
  | move m _ hm ih => rw [replay_append, ih, Option.bind_some, replay_cons, hm]; rfl

lemma exists_course_of_replay (h : (initial r root world).replay r moves = some d) :
    ∃ log, Course r root world moves log d := by
  induction moves using reverseRecOn generalizing d with
  | nil =>
    cases h
    exact ⟨_, .initial⟩
  | append_singleton moves m ih =>
    rw [replay_append, Option.bind_eq_some_iff] at h
    obtain ⟨d₁, hmoves, hm⟩ := h
    obtain ⟨log, hcourse⟩ := ih hmoves
    rw [replay_cons, Option.bind_eq_some_iff] at hm
    obtain ⟨d₂, hm, hrest⟩ := hm
    cases hrest
    exact ⟨_, .move m hcourse hm⟩

lemma exists_execution_of_replay (hroot : r.tree.root? = some root)
    (h : (initial r root world).replay r moves = some d) (hover : d.isOver root = true) :
    ∃ log, Execution r world moves log (d.result root) d.world := by
  obtain ⟨log, hcourse⟩ := exists_course_of_replay h
  exact ⟨log, .ended hroot hcourse hover⟩

lemma Through.append (h : Through r world moves m d d') (rest : List Move) :
    Through r world (moves ++ rest) m d d' := by
  obtain ⟨root, before, after, hroot, rfl, hbefore, hm⟩ := h
  exact ⟨root, before, after ++ rest, hroot, by simp, hbefore, hm⟩

/-- What has led to a state that a walk goes through, and what leads on from there to its end. -/
lemma Through.split {dEnd : Dispatch σ τ} (h : Through r world moves m d d')
    (hroot : r.tree.root? = some root) (hcourse : Course r root world moves log dEnd) :
    ∃ before logBefore after, moves = before ++ m :: after ∧
      Course r root world before logBefore d ∧ d.move? r m = some d' ∧
      d'.replay r after = some dEnd := by
  obtain ⟨root', before, after, hroot', rfl, hbefore, hm⟩ := h
  obtain rfl : root = root' := Option.some.inj (hroot.symm.trans hroot')
  obtain ⟨logBefore, hcourseBefore⟩ := exists_course_of_replay hbefore
  refine ⟨before, logBefore, after, rfl, hcourseBefore, hm, ?_⟩
  have hend := hcourse.replay
  rwa [replay_append, hbefore, Option.bind_some, replay_cons, hm, Option.bind_some] at hend

lemma Execution.exists_course {outcome : Except Fault (List Nat)} {world' : σ}
    (ht : r.tree.Rooted) (hi : i < r.tree.size)
    (h : Execution r world moves log outcome world') :
    ∃ root d, r.tree.root? = some root ∧ Course r root world moves log d ∧ d.world = world' := by
  cases h with
  | empty hroot =>
    rw [ht.root?_eq, if_neg (Nat.ne_of_gt (Nat.zero_lt_of_lt hi))] at hroot
    cases hroot
  | ended hroot h hover => exact ⟨_, _, hroot, h, rfl⟩

lemma not_running_initial (hroot : root < r.tree.size) (job : τ) :
    (initial r root world).phase? i ≠ some (.running job) := by
  rw [phase?_initial hroot]
  split_ifs <;> simp

/-- A node that runs after a move has run before, or has just begun to. -/
lemma Coherent.running_of_rule (h : Coherent r log d) (ht : r.tree.Rooted)
    (hrule : Rule r d m es d') {job : τ} (hi : d'.phase? i = some (.running job)) :
    d.phase? i = some (.running job) ∨ m = .start i ∧ d.phase? i = some .queued ∧
      ∃ node, r.tree.node? i = some node ∧ r.start node d.world = (.ok job, d'.world) := by
  -- a unit that moves to a phase in which its node does not run
  have hstops {d₁ : Dispatch σ τ} {j : Nat} {old new : Phase τ} (hphases : d₁.phases = d.phases)
      (hold : d.phase? j = some old) (hnew : new.isRunning = false)
      (hi : (d₁.setPhase j new).phase? i = some (.running job)) :
      d.phase? i = some (.running job) := by
    have hlt : j < d₁.phases.size := by
      rw [hphases]
      exact lt_size_of_phase hold
    rw [phase?_setPhase hlt] at hi
    split at hi
    · cases hi
      cases hnew
    · rwa [phase?, hphases] at hi
  cases hrule with
  | launch j node job' w hphase hpermit hnode hstart =>
    rw [phase?_setPhase (d := { d with world := w }) (lt_size_of_phase hphase)] at hi
    split at hi
    · next hij =>
      cases hi
      subst hij
      exact Or.inr ⟨rfl, hphase, node, hnode, hstart⟩
    · exact Or.inl hi
  | refuse j node f w hphase => exact Or.inl (hstops rfl hphase rfl hi)
  | succeed j node job' w hphase hnode hfinish =>
    rw [h.phase?_succeed ht hphase] at hi
    split_ifs at hi
    · cases hi
    · cases hi
    · cases hi
    · exact Or.inl hi
  | fail j node job' f w hphase => exact Or.inl (hstops rfl hphase rfl hi)
  | crash j node job' p w hphase => exact Or.inl (hstops rfl hphase rfl hi)
  | join j children hphase =>
    exact Or.inl (hstops (phases_noticeCrashes children) hphase rfl hi)

/-- A node that has succeeded was running when it was settled. -/
lemma Course.exists_settled (ht : r.tree.Rooted) (hroot : r.tree.root? = some root)
    (h : Course r root world moves log d) (hi : .succeeded i ∈ log) :
    ∃ d₁ d₂ node job, Through r world moves (.settle i) d₁ d₂ ∧
      d₁.phase? i = some (.running job) ∧ r.tree.node? i = some node ∧
      r.finish node job d₁.world = (.done, d₂.world) := by
  induction h with
  | initial => simp at hi
  | @move moves log d d' m h hm ih =>
    rcases mem_append.mp hi with hold | hnew
    · obtain ⟨d₁, d₂, node, job, hthrough, hrest⟩ := ih hold
      exact ⟨d₁, d₂, node, job, hthrough.append [m], hrest⟩
    · generalize hes : d.record r m = es at hnew
      have hrule := Rule.of_move? (h.coherent ht hroot).size_eq hm
      rw [hes] at hrule
      cases hrule with
      | succeed j node job w hphase hnode hfinish =>
        obtain rfl : i = j := by simpa using hnew
        refine ⟨d, _, node, job, ⟨root, moves, [], hroot, rfl, h.replay, hm⟩, hphase, hnode, ?_⟩
        rw [hfinish, world_complete]
      | _ => simp at hnew

end Dispatch

end PageRender
