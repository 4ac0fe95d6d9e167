import Mathlib.Algebra.Order.BigOperators.Group.Finset
import PageRender.Proofs.Dispatch.Preserve

/-!
# Courses come to an end

Every unit moves three times at most, so that no course is longer than three moves for each node. As
long as the unit of the root is not over, some unit can move: one that waits for others waits for
units further down, and one that waits for a permit waits for units that run. So every course can be
carried on to the end of the walk, and `Dispatch.run` is one that has been.
-/

namespace PageRender

open List

namespace Phase

/-- How many moves a unit still has before it. -/
def left {τ : Type} : Phase τ → Nat
  | idle | queued => 3
  | running _ => 2
  | joining _ => 1
  | finished | crashed => 0

end Phase

namespace Dispatch

variable {σ τ : Type} {r : Runner σ τ} {d d' : Dispatch σ τ} {log es : List LogEntry}
  {m : Move} {moves : List Move} {i root : Nat} {world : σ}

/-! ### Units move three times at most -/

/-- How many moves the unit of a node still has before it. -/
def left (d : Dispatch σ τ) (i : Nat) : Nat :=
  ((d.phase? i).map Phase.left).getD 0

/-- How many moves all units still have before them. -/
def leftAll (r : Runner σ τ) (d : Dispatch σ τ) : Nat :=
  ∑ i ∈ Finset.range r.tree.size, d.left i

lemma left_of_phase {phase : Phase τ} (h : d.phase? i = some phase) : d.left i = phase.left := by
  simp [left, h]

lemma leftAll_lt (hi : i < r.tree.size) (hlt : d'.left i < d.left i)
    (hle : ∀ j < r.tree.size, d'.left j ≤ d.left j) : d'.leftAll r < d.leftAll r :=
  Finset.sum_lt_sum (fun j hj => hle j (Finset.mem_range.mp hj)) ⟨i, Finset.mem_range.mpr hi, hlt⟩

/-- A move that changes the phase of one unit only. -/
lemma Coherent.leftAll_lt_of_own {d₁ : Dispatch σ τ} (h : Coherent r log d)
    (hphases : d₁.phases = d.phases) {old new : Phase τ} (hold : d.phase? i = some old)
    (hlt : new.left < old.left) : (d₁.setPhase i new).leftAll r < d.leftAll r := by
  have hi : i < d₁.phases.size := by
    rw [hphases]
    exact lt_size_of_phase hold
  have hnew : (d₁.setPhase i new).left i = new.left := left_of_phase (by simp [phase?_setPhase hi])
  refine leftAll_lt (h.size_eq ▸ lt_size_of_phase hold) ?_ fun j _ => ?_
  · rw [hnew, left_of_phase hold]
    exact hlt
  · by_cases hj : j = i
    · rw [hj, hnew, left_of_phase hold]
      exact hlt.le
    · rw [left, phase?_setPhase hi, if_neg hj, phase?, hphases]
      exact Nat.le_refl _

/-- Nodes that are scheduled have all their moves before them, as they had when they were idle. -/
lemma Coherent.leftAll_lt_of_succeed (h : Coherent r log d) (ht : r.tree.Rooted) {job : τ}
    (hphase : d.phase? i = some (.running job)) (w : σ) :
    ({ d with world := w }.complete r i).leftAll r < d.leftAll r := by
  have hphases := h.phase?_succeed ht hphase w
  have hi : ({ d with world := w }.complete r i).left i < d.left i := by
    rw [left_of_phase hphase, left, hphases, if_neg (h.not_mem_wave_self ht hphase), if_pos rfl]
    split <;> simp [Phase.left]
  refine leftAll_lt (h.size_eq ▸ lt_size_of_phase hphase) hi fun j hj => ?_
  by_cases hji : j = i
  · rw [hji]
    exact hi.le
  · rw [left, hphases, if_neg hji]
    split
    · next hjn =>
      obtain ⟨phase, hphase'⟩ := h.exists_phase hj
      have hidle := h.phase_idle hphase' (h.dispatched_not_mem_of_mem_wave ht hphase hjn)
      rw [left_of_phase hphase', hidle]
      exact Nat.le_refl _
    · exact Nat.le_refl _

lemma Coherent.leftAll_lt (h : Coherent r log d) (ht : r.tree.Rooted) (hrule : Rule r d m es d') :
    d'.leftAll r < d.leftAll r := by
  cases hrule with
  | launch i node job w hphase => exact h.leftAll_lt_of_own rfl hphase (by simp [Phase.left])
  | refuse i node f w hphase => exact h.leftAll_lt_of_own rfl hphase (by simp [Phase.left])
  | succeed i node job w hphase => exact h.leftAll_lt_of_succeed ht hphase w
  | fail i node job f w hphase => exact h.leftAll_lt_of_own rfl hphase (by simp [Phase.left])
  | crash i node job p w hphase => exact h.leftAll_lt_of_own rfl hphase (by simp [Phase.left])
  | join i children hphase =>
    exact h.leftAll_lt_of_own (phases_noticeCrashes children) hphase (by simp [Phase.left])

lemma Course.leftAll_lt (ht : r.tree.Rooted) (hroot : r.tree.root? = some root)
    (h : Course r root world moves log d) (hm : d.move? r m = some d') :
    d'.leftAll r < d.leftAll r :=
  have hd := h.coherent ht hroot
  hd.leftAll_lt ht (.of_move? hd.size_eq hm)

lemma leftAll_initial_le : (initial r root world).leftAll r ≤ 3 * r.tree.size := by
  have hle : ∀ i ∈ Finset.range r.tree.size, (initial r root world).left i ≤ 3 := by
    intro i _
    rw [left]
    cases (initial r root world).phase? i with
    | none => simp
    | some phase => cases phase <;> simp [Phase.left]
  calc (initial r root world).leftAll r ≤ (Finset.range r.tree.size).card • 3 :=
        Finset.sum_le_card_nsmul _ _ 3 hle
    _ = r.tree.size * 3 := by rw [Finset.card_range]; rfl
    _ = 3 * r.tree.size := Nat.mul_comm _ _

lemma Course.length_add_le (ht : r.tree.Rooted) (hroot : r.tree.root? = some root)
    (h : Course r root world moves log d) : moves.length + d.leftAll r ≤ 3 * r.tree.size := by
  induction h with
  | initial => simpa using leftAll_initial_le
  | move m h hm ih =>
    have hlt := h.leftAll_lt ht hroot hm
    rw [length_append, length_singleton]
    omega

/-! ### Some unit can move -/

/-- While the unit of a node is not over, there is a unit that waits for a permit, one that runs, or
one whose waiting can end: the node's own or one further down. -/
lemma Coherent.exists_busy (h : Coherent r log d) (ht : r.tree.Rooted) (n : Nat) {k : Nat}
    (hk : r.tree.up k i = some 0) (hn : r.tree.size ≤ k + n) (hi : .dispatched i ∈ log)
    (hover : d.isOver i = false) :
    (∃ j, d.phase? j = some .queued) ∨ (∃ j job, d.phase? j = some (.running job)) ∨
      ∃ j d', d.move? r (.join j) = some d' := by
  have hlt : i < r.tree.size := h.lt_size_of_dispatched hi
  -- a unit that waits in vain has a child that does: as deep as the tree is large there is none
  induction n generalizing i k with
  | zero =>
    obtain ⟨k', hk', hroot⟩ := ht.reaches_root_lt hlt
    have := ht.up_root_unique hk hroot
    omega
  | succ n ih =>
    obtain ⟨phase, hphase⟩ := h.exists_phase hlt
    rw [isOver_of_phase hphase] at hover
    cases phase with
    | idle => exact absurd hi (h.dispatched_not_mem_of_idle hphase)
    | queued => exact Or.inl ⟨i, hphase⟩
    | running job => exact Or.inr (Or.inl ⟨i, job, hphase⟩)
    | joining children =>
      by_cases hall : children.all d.isOver = true
      · exact Or.inr (Or.inr ⟨i, _, move?_join hphase hall⟩)
      · obtain ⟨c, hc, hcover⟩ : ∃ c ∈ children, d.isOver c = false := by simpa using hall
        have hchildren := h.joining hphase
        have hcd : .dispatched c ∈ log := hchildren.2 c hc
        rw [hchildren.1, ht.mem_children] at hc
        refine ih (k := k + 1) ?_ (by omega) hcd hcover (h.lt_size_of_dispatched hcd)
        rw [RenderTree.up_succ, hc]
        exact hk
    | finished => cases hover
    | crashed => cases hover

lemma exists_move_of_next? (h : d.next? r = some d') : ∃ m, d.move? r m = some d' := by
  obtain ⟨m, -, hm⟩ := exists_of_findSome?_eq_some h
  exact ⟨m, hm⟩

lemma next?_ne_none (hm : m ∈ d.preferred r) (h : d.move? r m = some d') : d.next? r ≠ none := by
  intro hnone
  rw [next?, findSome?_eq_none_iff] at hnone
  rw [hnone m hm] at h
  cases h

lemma Coherent.mem_scheduled (h : Coherent r log d) :
    i ∈ d.walk.scheduled ↔ .dispatched i ∈ log := by
  rw [h.walk_eq]
  exact mem_filterMap_dispatch

lemma Coherent.mem_busy (h : Coherent r log d) (hi : (d.isQueued i || d.isRunning i) = true) :
    i ∈ d.walk.scheduled.filter fun i => d.isQueued i || d.isRunning i := by
  refine mem_filter.mpr ⟨h.mem_scheduled.mpr ?_, hi⟩
  rcases Bool.or_eq_true _ _ ▸ hi with hi | hi
  · exact h.dispatched_of_phase (isQueued_iff.mp hi) nofun
  · obtain ⟨job, hjob⟩ := isRunning_iff.mp hi
    exact h.dispatched_of_phase hjob nofun

/-- If nodes run, the run of the first of them can end. -/
lemma Coherent.next?_of_running (h : Coherent r log d) {first : Nat} {rest : List Nat}
    (hrunning : d.running = first :: rest) : d.next? r ≠ none := by
  have hfirst : d.isRunning first = true := (mem_filter.mp (hrunning ▸ mem_cons_self)).2
  obtain ⟨job, hjob⟩ := isRunning_iff.mp hfirst
  refine next?_ne_none (m := .settle first) ?_ (move?_settle hjob)
  have hfront : first ∈ d.frontWave r := by
    rw [frontWave, hrunning]
    simpa using mem_filter.mp (h.mem_busy (i := first) (by rw [hfirst, Bool.or_true]))
  exact mem_append_right _ (mem_map.mpr ⟨first, mem_filter.mpr ⟨hfront, hfirst⟩, rfl⟩)

/-- If none runs, there is a permit for the first that is queued. -/
lemma Coherent.next?_of_queued (h : Coherent r log d) (hpermits : r.permits ≠ some 0)
    (hrunning : d.running = []) (hi : d.isQueued i = true) : d.next? r ≠ none := by
  obtain ⟨first, rest, hcons⟩ := exists_cons_of_ne_nil
    (ne_nil_of_mem (h.mem_busy (i := i) (by rw [hi, Bool.true_or])))
  obtain ⟨hscheduled, hfirst⟩ := mem_filter.mp (hcons ▸ mem_cons_self : first ∈ _)
  have hnot : first ∉ d.running := by
    rw [hrunning]
    exact not_mem_nil
  rw [running, mem_filter, not_and, Bool.not_eq_true] at hnot
  rw [hnot hscheduled, Bool.or_false] at hfirst
  have hpermit : d.hasPermit r.permits = true := by
    cases hp : r.permits with
    | none => rfl
    | some n =>
      rw [hasPermit, hrunning, decide_eq_true_iff]
      exact Nat.pos_of_ne_zero fun h0 => hpermits (h0 ▸ hp)
  refine next?_ne_none (m := .start first) ?_ (move?_start (isQueued_iff.mp hfirst) hpermit)
  have hfront : first ∈ d.frontWave r := by
    rw [frontWave, hrunning, hcons]
    simp
  rw [preferred, if_pos hpermit]
  exact mem_append_left _ (mem_append_right _
    (mem_map.mpr ⟨first, mem_filter.mpr ⟨hfront, hfirst⟩, rfl⟩))

lemma Course.next?_ne_none (ht : r.tree.Rooted) (hpermits : r.permits ≠ some 0)
    (hroot : r.tree.root? = some root) (h : Course r root world moves log d)
    (hover : d.isOver root = false) : d.next? r ≠ none := by
  have hd := h.coherent ht hroot
  obtain ⟨rfl, hsize⟩ := ht.root?_eq_some hroot
  have hzero : .dispatched 0 ∈ log := hd.dispatched_iff.mpr ⟨hsize, Or.inl rfl⟩
  obtain ⟨j, hj⟩ | ⟨j, job, hj⟩ | ⟨j, d', hj⟩ :=
    hd.exists_busy ht r.tree.size (k := 0) rfl (by omega) hzero hover
  · cases hrunning : d.running with
    | nil => exact hd.next?_of_queued hpermits hrunning (isQueued_iff.mpr hj)
    | cons first rest => exact hd.next?_of_running hrunning
  · have hmem : j ∈ d.running := by
      refine mem_filter.mpr ⟨?_, isRunning_iff.mpr ⟨job, hj⟩⟩
      exact hd.mem_scheduled.mpr (hd.dispatched_of_phase hj nofun)
    obtain ⟨first, rest, hrunning⟩ := exists_cons_of_ne_nil (ne_nil_of_mem hmem)
    exact hd.next?_of_running hrunning
  · refine Dispatch.next?_ne_none (m := .join j) ?_ hj
    obtain ⟨children, hphase⟩ := exists_joining_of_move? hj
    have hj' := hd.mem_scheduled.mpr (hd.dispatched_of_phase hphase nofun)
    exact mem_append_left _ (mem_append_left _ (mem_map_of_mem hj'))

/-- A walk that is not over can go on: nobody waits for ever. -/
lemma Course.exists_move (ht : r.tree.Rooted) (hpermits : r.permits ≠ some 0)
    (hroot : r.tree.root? = some root) (h : Course r root world moves log d)
    (hover : d.isOver root = false) : ∃ m d', d.move? r m = some d' := by
  obtain ⟨d', hnext⟩ := Option.ne_none_iff_exists'.mp (h.next?_ne_none ht hpermits hroot hover)
  obtain ⟨m, hm⟩ := exists_move_of_next? hnext
  exact ⟨m, d', hm⟩

/-! ### Every course can be carried on to the end -/

lemma Course.exists_over (ht : r.tree.Rooted) (hpermits : r.permits ≠ some 0)
    (hroot : r.tree.root? = some root) (h : Course r root world moves log d) :
    ∃ moves' log' d', Course r root world (moves ++ moves') (log ++ log') d' ∧
      d'.isOver root = true := by
  induction hn : d.leftAll r using Nat.strong_induction_on generalizing moves log d with
  | h n ih =>
    cases hover : d.isOver root with
    | true => exact ⟨[], [], d, by simpa using h, hover⟩
    | false =>
      obtain ⟨m, d₁, hm⟩ := h.exists_move ht hpermits hroot hover
      have hlt := h.leftAll_lt ht hroot hm
      obtain ⟨moves', log', d', h', hover'⟩ := ih (d₁.leftAll r) (hn ▸ hlt) (.move m h hm) rfl
      refine ⟨m :: moves', d.record r m ++ log', d', ?_, hover'⟩
      rwa [append_assoc, append_assoc, singleton_append] at h'

/-- A walk that is under way comes to an end. -/
theorem Course.exists_execution (ht : r.tree.Rooted) (hpermits : r.permits ≠ some 0)
    (hroot : r.tree.root? = some root) (h : Course r root world moves log d) :
    ∃ moves' log' outcome world',
      Execution r world (moves ++ moves') (log ++ log') outcome world' := by
  obtain ⟨moves', log', d', h', hover⟩ := h.exists_over ht hpermits hroot
  exact ⟨moves', log', d'.result root, d'.world, .ended hroot h' hover⟩

theorem Execution.length_le {outcome : Except Fault (List Nat)} {world' : σ} (ht : r.tree.Rooted)
    (h : Execution r world moves log outcome world') : moves.length ≤ 3 * r.tree.size := by
  cases h with
  | empty hroot => exact Nat.zero_le _
  | ended hroot h hover =>
    have := h.length_add_le ht hroot
    omega

/-! ### The order that is taken -/

lemma Course.drain (ht : r.tree.Rooted) (hpermits : r.permits ≠ some 0)
    (hroot : r.tree.root? = some root) (h : Course r root world moves log d) {n : Nat}
    (hn : d.leftAll r ≤ n) : ∃ moves' log', Course r root world moves' log' (drain r n d) ∧
      (drain r n d).isOver root = true := by
  induction n generalizing moves log d with
  | zero =>
    rw [Dispatch.drain]
    refine ⟨moves, log, h, ?_⟩
    by_contra hover
    obtain ⟨m, d', hm⟩ := h.exists_move ht hpermits hroot (by simpa using hover)
    have hlt := h.leftAll_lt ht hroot hm
    omega
  | succ n ih =>
    rw [Dispatch.drain]
    cases hnext : d.next? r with
    | none =>
      refine ⟨moves, log, h, ?_⟩
      by_contra hover
      exact h.next?_ne_none ht hpermits hroot (by simpa using hover) hnext
    | some d' =>
      obtain ⟨m, hm⟩ := exists_move_of_next? hnext
      have hlt := h.leftAll_lt ht hroot hm
      exact ih (.move m h hm) (by omega)

/-- The order that is taken is one of those that are possible. -/
theorem exists_execution_run (ht : r.tree.Rooted) (hpermits : r.permits ≠ some 0) (world : σ) :
    ∃ moves log, Execution r world moves log (run r world).1 (run r world).2 := by
  cases hroot : r.tree.root? with
  | none =>
    rw [run, hroot]
    exact ⟨[], [], .empty hroot⟩
  | some root =>
    have hinitial : Course r root world [] [.dispatched root] (initial r root world) := .initial
    obtain ⟨moves, log, h, hover⟩ := hinitial.drain ht hpermits hroot leftAll_initial_le
    rw [run, hroot]
    exact ⟨moves, log, .ended hroot h hover⟩

end Dispatch

end PageRender
