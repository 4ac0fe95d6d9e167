import PageRender.Proofs.Dispatch.Completion
import PageRender.Proofs.Dispatch.Passage

/-!
# Permits

The number of nodes that run at the same time is bounded by permits. Here they are counted by a
semaphore of its own: a unit takes one before its node runs, and gives it back when the run has come
to its end, before it waits for its children. The permits that are free and the nodes that run
always make up the bound. So a walk with a semaphore makes the moves of the walk with that bound and
no others, and since no unit waits for others with a permit in hand, it cannot get stuck.
-/

namespace PageRender

open List

variable {σ τ : Type}

/-- The node whose unit moves. -/
def Move.node : Move → Nat
  | start i | settle i | join i => i

/-- The runner that lets any number of nodes run. -/
def Runner.unbounded (r : Runner σ τ) : Runner σ τ :=
  { r with permits := none }

/-- A walk with a semaphore. -/
structure Guarded (σ τ : Type) where
  dispatch : Dispatch σ τ
  /-- The permits that nobody holds. -/
  free : Nat

namespace Guarded

/-- Before the first move all permits are free. -/
def initial (r : Runner σ τ) (root : Nat) (world : σ) (permits : Nat) : Guarded σ τ where
  dispatch := .initial r root world
  free := permits

/-- A walk with the permits that its nodes leave free. -/
def of (permits : Nat) (d : Dispatch σ τ) : Guarded σ τ :=
  ⟨d, permits - d.running.length⟩

/-- One move, if it is possible without a bound, and there is a permit for it if it starts a node.
A node that fails at its start has given its permit back at once. -/
def move? (r : Runner σ τ) (g : Guarded σ τ) (m : Move) : Option (Guarded σ τ) :=
  match m with
  | .start i =>
    if g.free = 0 then none
    else (g.dispatch.move? r.unbounded m).map fun d =>
      ⟨d, if d.isRunning i then g.free - 1 else g.free⟩
  | .settle _ => (g.dispatch.move? r.unbounded m).map (⟨·, g.free + 1⟩)
  | .join _ => (g.dispatch.move? r.unbounded m).map (⟨·, g.free⟩)

/-- Take moves one after the other, if all of them are possible. -/
def replay (r : Runner σ τ) (g : Guarded σ τ) (moves : List Move) : Option (Guarded σ τ) :=
  moves.foldlM (fun g m => g.move? r m) g

end Guarded

namespace Dispatch

variable {r : Runner σ τ} {d d' d₁ : Dispatch σ τ} {log log' es : List LogEntry} {m : Move}
  {moves : List Move} {world : σ} {root i j permits : Nat}

/-! ### The nodes that run -/

lemma isRunning_of_phase {phase : Phase τ} (h : d.phase? i = some phase) :
    d.isRunning i = phase.isRunning := by
  simp [isRunning, h]

lemma isRunning_setPhase {old new : Phase τ} (hphases : d₁.phases = d.phases)
    (hold : d.phase? i = some old) :
    (d₁.setPhase i new).isRunning j = if j = i then new.isRunning else d.isRunning j := by
  have hi : i < d₁.phases.size := by
    rw [hphases]
    exact lt_size_of_phase hold
  rw [isRunning, phase?_setPhase hi]
  split
  · rfl
  · rw [phase?, hphases]
    rfl

lemma count_filterMap_dispatch :
    (log.filterMap LogEntry.dispatch?).count i = log.count (.dispatched i) := by
  induction log with
  | nil => rfl
  | cons e log ih =>
    cases e with
    | dispatched j => by_cases hj : j = i <;> simp [LogEntry.dispatch?, ih, hj]
    | _ => simpa [LogEntry.dispatch?, filterMap_cons] using ih

lemma count_dispatched_le {phase : Phase τ} (h : Story i phase es) :
    es.count (.dispatched i) ≤ 1 := by
  cases h <;> simp [count_replicate]

namespace Coherent

lemma nodup_running (h : Coherent r log d) : d.running.Nodup := by
  refine Nodup.filter _ (nodup_iff_count_le_one.mpr fun i => ?_)
  rw [h.walk_eq]
  exact count_filterMap_dispatch.trans_le (h.count_le count_dispatched_le)

lemma mem_running (h : Coherent r log d) : i ∈ d.running ↔ d.isRunning i = true := by
  rw [running, mem_filter, and_iff_right_iff_imp]
  intro hi
  obtain ⟨job, hjob⟩ := isRunning_iff.mp hi
  exact h.mem_scheduled.mpr (h.dispatched_of_phase hjob (by simp))

/-- If only one node starts or stops running, the number of those that run changes by it. -/
lemma length_running (h : Coherent r log d) (h' : Coherent r log' d')
    (hother : ∀ j, j ≠ i → d'.isRunning j = d.isRunning j) :
    d'.running.length + (if d.isRunning i then 1 else 0) =
      d.running.length + (if d'.isRunning i then 1 else 0) := by
  have hperm : (d'.running.erase i).Perm (d.running.erase i) := by
    refine (perm_ext_iff_of_nodup (h'.nodup_running.erase i) (h.nodup_running.erase i)).mpr ?_
    intro j
    rw [h'.nodup_running.mem_erase_iff, h.nodup_running.mem_erase_iff, h'.mem_running,
      h.mem_running]
    exact and_congr_right fun hj => by rw [hother j hj]
  have hsplit {log : List LogEntry} {d : Dispatch σ τ} (h : Coherent r log d) :
      d.running.length = (d.running.erase i).length + if d.isRunning i then 1 else 0 := by
    by_cases hi : d.isRunning i = true
    · have hpos := length_pos_of_mem (h.mem_running.mpr hi)
      rw [length_erase_of_mem (h.mem_running.mpr hi), if_pos hi]
      omega
    · rw [erase_of_not_mem (mt h.mem_running.mp hi), if_neg hi, Nat.add_zero]
  rw [hsplit h, hsplit h', hperm.length_eq]
  omega

/-- A move changes for one node only whether it runs. -/
lemma isRunning_of_ne (h : Coherent r log d) (ht : r.tree.Rooted) (hrule : Rule r d m es d')
    (hj : j ≠ m.node) : d'.isRunning j = d.isRunning j := by
  cases hrule with
  | launch i node job w hphase => exact (isRunning_setPhase rfl hphase).trans (if_neg hj)
  | refuse i node f w hphase => exact (isRunning_setPhase rfl hphase).trans (if_neg hj)
  | fail i node job f w hphase => exact (isRunning_setPhase rfl hphase).trans (if_neg hj)
  | crash i node job p w hphase => exact (isRunning_setPhase rfl hphase).trans (if_neg hj)
  | join i children hphase =>
    exact (isRunning_setPhase (phases_noticeCrashes children) hphase).trans (if_neg hj)
  | succeed i node job w hphase =>
    rw [isRunning, h.phase?_succeed ht hphase w]
    split
    · next hwave =>
      -- a node that is scheduled now has been idle until now
      obtain ⟨phase, hidle⟩ := h.exists_phase (h.lt_size_of_mem_wave ht hphase hwave)
      rw [isRunning_of_phase hidle,
        h.phase_idle hidle (h.dispatched_not_mem_of_mem_wave ht hphase hwave)]
      rfl
    · rw [if_neg (show j ≠ i from hj)]
      rfl

/-- Only a unit whose node runs can end a run. -/
lemma isRunning_before (hrule : Rule r d m es d') :
    d.isRunning m.node = decide (m = .settle m.node) := by
  cases hrule with
  | launch i node job w hphase => simpa [Move.node, Phase.isRunning] using isRunning_of_phase hphase
  | refuse i node f w hphase => simpa [Move.node, Phase.isRunning] using isRunning_of_phase hphase
  | succeed i node job w hphase =>
    simpa [Move.node, Phase.isRunning] using isRunning_of_phase hphase
  | fail i node job f w hphase => simpa [Move.node, Phase.isRunning] using isRunning_of_phase hphase
  | crash i node job p w hphase =>
    simpa [Move.node, Phase.isRunning] using isRunning_of_phase hphase
  | join i children hphase => simpa [Move.node, Phase.isRunning] using isRunning_of_phase hphase

/-- A unit that has ended the run of its node, or its waiting, holds no permit. -/
lemma isRunning_node (h : Coherent r log d) (ht : r.tree.Rooted) (hrule : Rule r d m es d')
    (hm : m ≠ .start m.node) : d'.isRunning m.node = false := by
  cases hrule with
  | launch i => exact absurd rfl hm
  | refuse i => exact absurd rfl hm
  | fail i node job f w hphase => exact (isRunning_setPhase rfl hphase).trans (if_pos rfl)
  | crash i node job p w hphase => exact (isRunning_setPhase rfl hphase).trans (if_pos rfl)
  | join i children hphase =>
    exact (isRunning_setPhase (phases_noticeCrashes children) hphase).trans (if_pos rfl)
  | succeed i node job w hphase =>
    rw [Move.node, isRunning, h.phase?_succeed ht hphase w,
      if_neg (h.not_mem_wave_self ht hphase), if_pos rfl]
    split <;> rfl

end Coherent

/-! ### Walks with a semaphore -/

/-- With a free permit a unit starts as it does without a bound. -/
lemma move?_unbounded (hpermit : d.hasPermit r.permits = true) :
    d.move? r.unbounded (.start i) = d.move? r (.start i) := by
  simp only [move?, hpermit, if_true]
  rfl

lemma hasPermit_iff (hpermits : r.permits = some permits) :
    d.hasPermit r.permits = true ↔ d.running.length < permits := by
  rw [hpermits, hasPermit, decide_eq_true_iff]

lemma move?_start_eq_none (hpermit : d.hasPermit r.permits = false) :
    d.move? r (.start i) = none := by
  simp only [move?, hpermit]
  split <;> rfl

namespace Coherent

variable (h : Coherent r log d) (ht : r.tree.Rooted)

include h ht

/-- How a move changes the number of nodes that run. -/
lemma length_running_of_start (hm : d.move? r (.start i) = some d') :
    d'.running.length = d.running.length + if d'.isRunning i then 1 else 0 := by
  have hrule := Rule.of_move? h.size_eq hm
  have hlength := h.length_running (h.rule ht hrule) fun _ => h.isRunning_of_ne ht hrule
  rw [isRunning_before hrule] at hlength
  exact hlength

lemma length_running_of_settle (hm : d.move? r (.settle i) = some d') :
    d'.running.length + 1 = d.running.length := by
  have hrule := Rule.of_move? h.size_eq hm
  have hlength := h.length_running (h.rule ht hrule) fun _ => h.isRunning_of_ne ht hrule
  rw [isRunning_before hrule, h.isRunning_node ht hrule nofun] at hlength
  simpa [Move.node] using hlength

lemma length_running_of_join (hm : d.move? r (.join i) = some d') :
    d'.running.length = d.running.length := by
  have hrule := Rule.of_move? h.size_eq hm
  have hlength := h.length_running (h.rule ht hrule) fun _ => h.isRunning_of_ne ht hrule
  rw [isRunning_before hrule, h.isRunning_node ht hrule nofun] at hlength
  exact hlength

variable (hpermits : r.permits = some permits) (hle : d.running.length ≤ permits)

include hpermits hle

/-- No move exceeds the bound. -/
lemma length_running_le (hm : d.move? r m = some d') : d'.running.length ≤ permits := by
  cases m with
  | start i =>
    by_cases hpermit : d.hasPermit r.permits = true
    · rw [hasPermit_iff hpermits] at hpermit
      have hlength := h.length_running_of_start ht hm
      split at hlength <;> omega
    · rw [move?_start_eq_none (by simpa using hpermit)] at hm
      cases hm
  | settle i => exact (Nat.le_of_lt (h.length_running_of_settle ht hm).le).trans hle
  | join i => exact (h.length_running_of_join ht hm).trans_le hle

/-- A move with a semaphore whose free permits make up the bound with the nodes that run. -/
lemma guarded_move? : (Guarded.of permits d).move? r m =
    (d.move? r m).map (Guarded.of permits) := by
  cases m with
  | start i =>
    have hiff := hasPermit_iff (d := d) hpermits
    by_cases hlt : d.running.length < permits
    · rw [Guarded.of, Guarded.move?, if_neg (Nat.sub_ne_zero_of_lt hlt),
        move?_unbounded (hiff.mpr hlt)]
      refine Option.map_congr fun d' hm => ?_
      have hlength := h.length_running_of_start ht hm
      cases hi : d'.isRunning i <;> simp [hi, Guarded.of] at hlength ⊢ <;> omega
    · rw [Guarded.of, Guarded.move?, if_pos (Nat.sub_eq_zero_of_le (Nat.le_of_not_lt hlt)),
        move?_start_eq_none (by simpa using mt hiff.mp hlt)]
      rfl
  | settle i =>
    change (d.move? r (.settle i)).map _ = _
    refine Option.map_congr fun d' hm => ?_
    have hlength := h.length_running_of_settle ht hm
    simp [Guarded.of]
    omega
  | join i =>
    change (d.move? r (.join i)).map _ = _
    refine Option.map_congr fun d' hm => ?_
    simp [Guarded.of, h.length_running_of_join ht hm]

end Coherent

lemma running_initial (hroot : root < r.tree.size) : (initial r root world).running = [] := by
  rw [running, filter_eq_nil_iff]
  intro i _ hi
  obtain ⟨job, hjob⟩ := isRunning_iff.mp hi
  exact not_running_initial hroot job hjob

section

variable (ht : r.tree.Rooted) (hroot : r.tree.root? = some root)
  (hpermits : r.permits = some permits)

include ht hroot hpermits

/-- In no state of a bounded walk do more nodes run than the bound allows. -/
lemma Course.length_running_le (h : Course r root world moves log d) :
    d.running.length ≤ permits := by
  induction h with
  | initial =>
    obtain ⟨rfl, hsize⟩ := ht.root?_eq_some hroot
    rw [running_initial hsize]
    exact Nat.zero_le _
  | move m h hm ih => exact (h.coherent ht hroot).length_running_le ht hpermits ih hm

/-- A walk with a semaphore is the walk with that bound. -/
lemma guarded_replay : (Guarded.initial r root world permits).replay r moves =
    ((initial r root world).replay r moves).map (Guarded.of permits) := by
  induction moves using reverseRecOn with
  | nil =>
    obtain ⟨rfl, hsize⟩ := ht.root?_eq_some hroot
    simp [Guarded.replay, replay, Guarded.of, Guarded.initial, running_initial hsize]
  | append_singleton moves m ih =>
    rw [Guarded.replay, foldlM_append, ← Guarded.replay, ih, replay_append]
    cases hd : (initial r root world).replay r moves with
    | none => rfl
    | some d =>
      obtain ⟨log, hcourse⟩ := exists_course_of_replay hd
      have hmove := (hcourse.coherent ht hroot).guarded_move? ht hpermits
        (m := m) (hcourse.length_running_le ht hroot hpermits)
      simpa [replay] using hmove

end

/-- In a bounded walk over any tree that has been built, taken as units that share a semaphore: the
moves are those of the walk that counts the nodes which run; what is not free of the permits is held
by the nodes that run, so that these are never more than the bound, and a unit which waits for its
children holds none; and as long as the unit of the root is not over, some unit can move. Without a
bound, every unit that is queued can start, and the walk cannot get stuck either. -/
theorem permits_bound_walks {steps : List Step} {parallel : Dict (List String)} {t : RenderTree}
    (h : RenderTree.build steps parallel = .ok t) (settings : Settings)
    (start : Node → σ → Except Fault τ × σ) (finish : Node → τ → σ → Ending × σ) (world : σ)
    (hroot : t.root? = some root) :
    let r : Runner σ τ := ⟨t, settings.permits, start, finish⟩
    (∀ m, settings.maxParallel = some m → 0 < m → ∀ moves,
      (Guarded.initial r root world m).replay r moves =
        ((initial r root world).replay r moves).map (Guarded.of m) ∧
      ∀ g, (Guarded.initial r root world m).replay r moves = some g →
        g.dispatch.running.Nodup ∧
        (∀ i, i ∈ g.dispatch.running ↔ ∃ job, g.dispatch.phase? i = some (.running job)) ∧
        g.dispatch.running.length ≤ m ∧ g.free + g.dispatch.running.length = m ∧
        (g.dispatch.isOver root = false → ∃ move g', g.move? r move = some g')) ∧
    (settings.maxParallel = none ∨ settings.maxParallel = some 0 → ∀ moves d,
      (initial r root world).replay r moves = some d →
        (∀ i, d.phase? i = some .queued → ∃ d', d.move? r (.start i) = some d') ∧
        (d.isOver root = false → ∃ move d', d.move? r move = some d')) := by
  intro r
  have ht : r.tree.Rooted := RenderTree.rooted_of_build h []
  have hprogress : r.permits ≠ some 0 := settings.permits_ne_zero
  refine ⟨fun m hm hpos moves => ?_, fun hnone moves d hd => ?_⟩
  · have hpermits : r.permits = some m := by
      change settings.permits = _
      rw [Settings.permits, hm, Option.filter_some_pos (by simpa using hpos)]
    have hreplay : (Guarded.initial r root world m).replay r moves =
        ((initial r root world).replay r moves).map (Guarded.of m) :=
      guarded_replay ht hroot hpermits
    refine ⟨hreplay, fun g hg => ?_⟩
    rw [hreplay, Option.map_eq_some_iff] at hg
    obtain ⟨d, hd, rfl⟩ := hg
    obtain ⟨log, hcourse⟩ := exists_course_of_replay hd
    have hc := hcourse.coherent ht hroot
    have hle := hcourse.length_running_le ht hroot hpermits
    refine ⟨hc.nodup_running, fun i => hc.mem_running.trans isRunning_iff, hle,
      Nat.sub_add_cancel hle, fun hover => ?_⟩
    obtain ⟨move, d', hmove⟩ := hcourse.exists_move ht hprogress hroot hover
    refine ⟨move, .of m d', ?_⟩
    rw [hc.guarded_move? ht hpermits hle, hmove, Option.map_some]
  · have hpermits : r.permits = none := by
      change settings.permits = _
      rcases hnone with hnone | hnone <;> rw [Settings.permits, hnone] <;> rfl
    obtain ⟨log, hcourse⟩ := exists_course_of_replay hd
    refine ⟨fun i hi => ⟨_, move?_start hi ?_⟩, hcourse.exists_move ht hprogress hroot⟩
    rw [hpermits]
    rfl

/-- With one permit and a list of three nodes: when the second has ended, the first two wait for
those below them, the permit is free, and the walk goes on. -/
theorem permits_bound_walks_list :
    ∃ t, RenderTree.build (["a", "b", "c"].map Step.plain) .empty = .ok t ∧ t.root? = some 0 ∧
      let r := Runner.recorder t { maxParallel := some 1 } []
      ∃ g, (Guarded.initial r 0 [] 1).replay r
          [.start 0, .settle 0, .start 1, .settle 1] = some g ∧
        g.dispatch.isOver 0 = false ∧ g.dispatch.isOver 1 = false ∧ g.free = 1 ∧
        g.free + g.dispatch.running.length = 1 ∧ ∃ move g', g.move? r move = some g' := by
  obtain ⟨t, ht⟩ : ∃ t, RenderTree.build (["a", "b", "c"].map Step.plain) .empty = .ok t :=
    exists_ok_of_toBool (by decide +kernel)
  have hroot := of_any_toOption ht (P := fun t => t.root? == some 0) (by decide +kernel)
  have hmoves := of_any_toOption ht (P := fun t =>
    let r := Runner.recorder t { maxParallel := some 1 } []
    ((Guarded.initial r 0 [] 1).replay r [.start 0, .settle 0, .start 1, .settle 1]).any fun g =>
      !g.dispatch.isOver 0 && !g.dispatch.isOver 1 && g.free == 1) (by decide +kernel)
  obtain ⟨g, hg, hchecks⟩ := (Option.any_eq_true _ _).mp hmoves
  simp only [Bool.and_eq_true, Bool.not_eq_true', beq_iff_eq] at hchecks
  obtain ⟨⟨hzero, hone⟩, hfree⟩ := hchecks
  obtain ⟨hbounded, -⟩ := permits_bound_walks ht { maxParallel := some 1 } _ _ []
    (beq_iff_eq.mp hroot)
  obtain ⟨-, hreached⟩ := hbounded 1 rfl (by decide) _
  obtain ⟨-, -, -, hpermits, hmove⟩ := hreached g hg
  exact ⟨t, ht, beq_iff_eq.mp hroot, g, hg, hzero, hone, hfree, hpermits, hmove hzero⟩

end Dispatch

end PageRender
