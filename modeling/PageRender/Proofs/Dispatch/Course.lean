import PageRender.Proofs.Dispatch.Log

/-!
# Courses of a walk

A course is a series of moves that were all possible, in any order, with the log of what has
happened in them. An execution is a course that has come to its end, with what has come of the walk.
-/

namespace PageRender

open List

namespace Dispatch

variable {σ τ : Type} {r : Runner σ τ} {d d' : Dispatch σ τ} {i : Nat}

/-- The nodes whose units have ended by a panic. -/
def crashedAmong (d : Dispatch σ τ) (nodes : List Nat) : List Nat :=
  nodes.filter fun i => (d.phase? i).any Phase.isCrashed

/-- The wave that a node schedules when it is done. -/
def wave (r : Runner σ τ) (d : Dispatch σ τ) (i : Nat) : List Nat :=
  (d.walk.complete r.tree i).2

/-- What happens in a move. -/
def record (r : Runner σ τ) (d : Dispatch σ τ) : Move → List LogEntry
  | .start i =>
    match r.tree.node? i with
    | none => [.failed i (missingFault i)]
    | some node =>
      match (r.start node d.world).1 with
      | .ok _ => [.started i]
      | .error f => [.started i, .failed i f]
  | .settle i =>
    match d.phase? i, r.tree.node? i with
    | some (.running job), some node =>
      match (r.finish node job d.world).1 with
      | .done => .succeeded i :: (d.wave r i).map .dispatched
      | .failed f => [.failed i f]
      | .crashed _ => [.crashed i]
    | _, _ => [.failed i (missingFault i)]
  | .join i =>
    match d.phase? i with
    | some (.joining children) =>
      (d.crashedAmong children).map (fun c => .failed c (crashFault c)) ++ [.joined i]
    | _ => []

lemma isQueued_iff : d.isQueued i = true ↔ d.phase? i = some .queued := by
  rw [isQueued, Option.any_eq_true]
  refine ⟨?_, fun h => ⟨_, h, rfl⟩⟩
  rintro ⟨phase, hphase, hqueued⟩
  cases phase with
  | queued => exact hphase
  | _ => cases hqueued

lemma isRunning_iff : d.isRunning i = true ↔ ∃ job, d.phase? i = some (.running job) := by
  rw [isRunning, Option.any_eq_true]
  refine ⟨?_, fun ⟨job, h⟩ => ⟨_, h, rfl⟩⟩
  rintro ⟨phase, hphase, hrunning⟩
  cases phase with
  | running job => exact ⟨job, hphase⟩
  | _ => cases hrunning

lemma move?_start (h : d.phase? i = some .queued) (hpermit : d.hasPermit r.permits = true) :
    d.move? r (.start i) = some (d.launch r i) := by
  simp [move?, h, hpermit]

lemma move?_settle {job : τ} (h : d.phase? i = some (.running job)) :
    d.move? r (.settle i) = some (d.settle r i job) := by
  simp [move?, h]

lemma move?_join {children : List Nat} (h : d.phase? i = some (.joining children))
    (hover : children.all d.isOver = true) :
    d.move? r (.join i) = some ((d.noticeCrashes children).setPhase i .finished) := by
  simp [move?, h, hover]

lemma exists_joining_of_move? (h : d.move? r (.join i) = some d') :
    ∃ children, d.phase? i = some (.joining children) := by
  simp only [move?] at h
  split at h
  · next children hphase => exact ⟨children, hphase⟩
  · cases h

/-- A series of possible moves from the start of a walk, the log of what has happened in them, and
where they have led. -/
inductive Course (r : Runner σ τ) (root : Nat) (world : σ) :
    List Move → List LogEntry → Dispatch σ τ → Prop
  | initial : Course r root world [] [.dispatched root] (initial r root world)
  | move {moves log d d'} (m : Move) (h : Course r root world moves log d)
      (hm : d.move? r m = some d') : Course r root world (moves ++ [m]) (log ++ d.record r m) d'

/-- A walk from its start to its end, with its result and the world that it leaves. A tree without
nodes needs no move; in any other the walk is over when the unit of the root is. -/
inductive Execution (r : Runner σ τ) (world : σ) :
    List Move → List LogEntry → Except Fault (List Nat) → σ → Prop
  | empty (hroot : r.tree.root? = none) : Execution r world [] [] (.ok []) world
  | ended {root moves log d} (hroot : r.tree.root? = some root)
      (h : Course r root world moves log d) (hover : d.isOver root = true) :
      Execution r world moves log (d.result root) d.world

/-- The first thing that happens is that the root is dispatched. -/
lemma Course.dispatched_root {root : Nat} {world : σ} {moves : List Move} {log : List LogEntry}
    (h : Course r root world moves log d) : .dispatched root ∈ log := by
  induction h with
  | initial => exact mem_singleton_self _
  | move m _ _ ih => exact mem_append_left _ ih

lemma Execution.dispatched_root {root : Nat} {world world' : σ} {moves : List Move}
    {log : List LogEntry} {outcome : Except Fault (List Nat)} (hroot : r.tree.root? = some root)
    (h : Execution r world moves log outcome world') : .dispatched root ∈ log := by
  cases h with
  | empty hnone =>
    rw [hnone] at hroot
    cases hroot
  | ended hroot' h hover =>
    rw [hroot'] at hroot
    cases hroot
    exact h.dispatched_root

/-! ### Rules -/

/-- The moves that are possible, with what happens in them and where they lead. -/
inductive Rule (r : Runner σ τ) (d : Dispatch σ τ) : Move → List LogEntry → Dispatch σ τ → Prop
  | launch (i : Nat) (node : Node) (job : τ) (w : σ) (hphase : d.phase? i = some .queued)
      (hpermit : d.hasPermit r.permits = true) (hnode : r.tree.node? i = some node)
      (hstart : r.start node d.world = (.ok job, w)) :
      Rule r d (.start i) [.started i] ({ d with world := w }.setPhase i (.running job))
  | refuse (i : Nat) (node : Node) (f : Fault) (w : σ) (hphase : d.phase? i = some .queued)
      (hpermit : d.hasPermit r.permits = true) (hnode : r.tree.node? i = some node)
      (hstart : r.start node d.world = (.error f, w)) :
      Rule r d (.start i) [.started i, .failed i f]
        (({ d with world := w }.fail f).setPhase i .finished)
  | succeed (i : Nat) (node : Node) (job : τ) (w : σ) (hphase : d.phase? i = some (.running job))
      (hnode : r.tree.node? i = some node) (hfinish : r.finish node job d.world = (.done, w)) :
      Rule r d (.settle i) (.succeeded i :: (d.wave r i).map .dispatched)
        ({ d with world := w }.complete r i)
  | fail (i : Nat) (node : Node) (job : τ) (f : Fault) (w : σ)
      (hphase : d.phase? i = some (.running job)) (hnode : r.tree.node? i = some node)
      (hfinish : r.finish node job d.world = (.failed f, w)) :
      Rule r d (.settle i) [.failed i f] (({ d with world := w }.fail f).setPhase i .finished)
  | crash (i : Nat) (node : Node) (job : τ) (p : Panic) (w : σ)
      (hphase : d.phase? i = some (.running job)) (hnode : r.tree.node? i = some node)
      (hfinish : r.finish node job d.world = (.crashed p, w)) :
      Rule r d (.settle i) [.crashed i] ({ d with world := w }.setPhase i .crashed)
  | join (i : Nat) (children : List Nat) (hphase : d.phase? i = some (.joining children))
      (hover : children.all d.isOver = true) :
      Rule r d (.join i)
        ((d.crashedAmong children).map (fun c => .failed c (crashFault c)) ++ [.joined i])
        ((d.noticeCrashes children).setPhase i .finished)

lemma lt_size_of_phase {i : Nat} {phase : Phase τ} (h : d.phase? i = some phase) :
    i < d.phases.size := by
  rw [phase?, Array.getElem?_eq_some_iff] at h
  exact h.1

lemma exists_node_of_phase (hsize : d.phases.size = r.tree.size) {i : Nat} {phase : Phase τ}
    (h : d.phase? i = some phase) : ∃ node, r.tree.node? i = some node := by
  have hi := lt_size_of_phase h
  rw [hsize] at hi
  exact ⟨_, Array.getElem?_eq_getElem hi⟩

/-- Every possible move is one of the rules. -/
lemma Rule.of_move? {m : Move} (hsize : d.phases.size = r.tree.size) (h : d.move? r m = some d') :
    Rule r d m (d.record r m) d' := by
  cases m with
  | start i =>
    simp only [move?] at h
    split at h
    · next hphase =>
      split at h
      · next hpermit =>
        cases h
        obtain ⟨node, hnode⟩ := exists_node_of_phase hsize hphase
        rcases hstart : r.start node d.world with ⟨f | job, w⟩
        · simpa [record, Dispatch.launch, hnode, hstart] using
            Rule.refuse i node f w hphase hpermit hnode hstart
        · simpa [record, Dispatch.launch, hnode, hstart] using
            Rule.launch i node job w hphase hpermit hnode hstart
      · cases h
    · cases h
  | settle i =>
    simp only [move?] at h
    split at h
    · next job hphase =>
      cases h
      obtain ⟨node, hnode⟩ := exists_node_of_phase hsize hphase
      rcases hfinish : r.finish node job d.world with ⟨_ | f | p, w⟩
      · simpa [record, settle, hphase, hnode, hfinish] using
          Rule.succeed i node job w hphase hnode hfinish
      · simpa [record, settle, hphase, hnode, hfinish] using
          Rule.fail i node job f w hphase hnode hfinish
      · simpa [record, settle, hphase, hnode, hfinish] using
          Rule.crash i node job p w hphase hnode hfinish
    · cases h
  | join i =>
    simp only [move?] at h
    split at h
    · next children hphase =>
      split at h
      · next hover =>
        cases h
        simpa [record, hphase] using Rule.join i children hphase hover
      · cases h
    · cases h


/-! ### Phases after a move -/

@[simp] lemma size_setPhase (phase : Phase τ) :
    (d.setPhase i phase).phases.size = d.phases.size := by
  simp [setPhase]

lemma phase?_setPhase {j : Nat} {phase : Phase τ} (hi : i < d.phases.size) :
    (d.setPhase i phase).phase? j = if j = i then some phase else d.phase? j := by
  simp only [phase?, setPhase, Array.getElem?_setIfInBounds]
  by_cases h : j = i
  · subst h
    simp [hi]
  · rw [if_neg (Ne.symm h), if_neg h]

lemma schedule_eq (next : List Nat) (phase : Phase τ) :
    next.foldl (fun d c => d.setPhase c phase) d =
      { d with phases := (next.foldl (fun d c => d.setPhase c phase) d).phases } := by
  induction next generalizing d with
  | nil => rfl
  | cons c next ih => rw [foldl_cons, ih]; rfl

@[simp] lemma size_schedule (next : List Nat) (phase : Phase τ) :
    (next.foldl (fun d c => d.setPhase c phase) d).phases.size = d.phases.size := by
  induction next generalizing d with
  | nil => rfl
  | cons c next ih => rw [foldl_cons, ih, size_setPhase]

lemma phase?_schedule {j : Nat} {next : List Nat} {phase : Phase τ}
    (h : ∀ c ∈ next, c < d.phases.size) :
    (next.foldl (fun d c => d.setPhase c phase) d).phase? j =
      if j ∈ next then some phase else d.phase? j := by
  induction next generalizing d with
  | nil => simp
  | cons c next ih =>
    rw [foldl_cons, ih (by simpa using fun x hx => h x (mem_cons_of_mem c hx)),
      phase?_setPhase (h c mem_cons_self)]
    by_cases hj : j ∈ next <;> by_cases hc : j = c <;> simp [hj, hc]

/-- A node that is done leaves the bookkeeping to the walk; the rest is a change of phases. -/
lemma complete_eq : d.complete r i = (d.wave r i).foldl (fun d c => d.setPhase c .queued)
    ({ d with walk := (d.walk.complete r.tree i).1 }.setPhase i
      (if (d.wave r i).isEmpty then .finished else .joining (d.wave r i))) := rfl

@[simp] lemma size_complete : (d.complete r i).phases.size = d.phases.size := by
  rw [complete_eq, size_schedule, size_setPhase]

lemma phase?_complete {j : Nat} (hi : i < d.phases.size) (h : ∀ c ∈ d.wave r i, c < d.phases.size) :
    (d.complete r i).phase? j = if j ∈ d.wave r i then some .queued
      else if j = i then some (if (d.wave r i).isEmpty then .finished else .joining (d.wave r i))
      else d.phase? j := by
  rw [complete_eq, phase?_schedule (by simpa using h),
    phase?_setPhase (d := { d with walk := (d.walk.complete r.tree i).1 }) hi]
  rfl

lemma walk_complete : (d.complete r i).walk = (d.walk.complete r.tree i).1 := by
  rw [complete_eq, schedule_eq]
  rfl

lemma world_complete : (d.complete r i).world = d.world := by
  rw [complete_eq, schedule_eq]
  rfl

/-- Noticing crashes is bookkeeping. -/
lemma noticeCrashes_eq (nodes : List Nat) :
    d.noticeCrashes nodes = { d with walk := (d.noticeCrashes nodes).walk } := by
  rw [noticeCrashes]
  generalize nodes.filter _ = crashed
  induction crashed generalizing d with
  | nil => rfl
  | cons c crashed ih => rw [foldl_cons, ih]; rfl

lemma phases_noticeCrashes (nodes : List Nat) : (d.noticeCrashes nodes).phases = d.phases := by
  rw [noticeCrashes_eq]

lemma world_noticeCrashes (nodes : List Nat) : (d.noticeCrashes nodes).world = d.world := by
  rw [noticeCrashes_eq]

lemma phase?_noticeCrashes (nodes : List Nat) (j : Nat) :
    (d.noticeCrashes nodes).phase? j = d.phase? j := by
  rw [phase?, phases_noticeCrashes, phase?]

end Dispatch

end PageRender
