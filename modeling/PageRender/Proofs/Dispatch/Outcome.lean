import PageRender.Proofs.Dispatch.Progress
import PageRender.Service.Settings

/-!
# What walks come to

When the unit of the root is over, the units of all dispatched nodes are. Nothing that a unit has
gone through is there twice, so that the log tells which nodes have run and how their runs ended.
-/

namespace PageRender

open List

/-- The end of a run. -/
def LogEntry.isEnd : LogEntry → Bool
  | succeeded _ | failed _ _ | crashed _ => true
  | _ => false

/-! ### Counting -/

section

variable {log : List LogEntry} {i : Nat}

lemma count_about {e : LogEntry} : (about log e.node).count e = log.count e := by
  rw [about, count_filter (by simp)]

lemma countP_about (p : LogEntry → Bool) :
    (about log i).countP p = log.countP fun e => e.node = i && p e := by
  rw [about, countP_filter]
  congr
  funext e
  rw [Bool.and_comm]

lemma count_filterMap_success :
    (log.filterMap LogEntry.success?).count i = log.count (.succeeded i) := by
  induction log with
  | nil => rfl
  | cons e log ih =>
    cases e with
    | succeeded j => by_cases hj : j = i <;> simp [LogEntry.success?, ih, hj]
    | _ => simpa [LogEntry.success?, filterMap_cons] using ih

end

namespace Story

variable {τ : Type} {phase : Phase τ} {i : Nat} {es : List LogEntry}

lemma count_started_le (h : Story i phase es) : es.count (.started i) ≤ 1 := by
  cases h <;> simp [count_replicate]

lemma count_succeeded_le (h : Story i phase es) : es.count (.succeeded i) ≤ 1 := by
  cases h <;> simp [count_replicate]

lemma count_started (h : Story i phase es) (hover : phase.isOver = true) :
    es.count (.started i) = 1 := by
  cases h with
  | idle => cases hover
  | queued => cases hover
  | running job => cases hover
  | joining children => cases hover
  | _ => simp [count_replicate]

lemma countP_isEnd (h : Story i phase es) (hover : phase.isOver = true) (hcrash : .crashed i ∉ es) :
    es.countP LogEntry.isEnd = 1 := by
  cases h with
  | idle => cases hover
  | queued => cases hover
  | running job => cases hover
  | joining children => cases hover
  | crashed n => simp at hcrash
  | _ => rfl

lemma crashed_mem (h : Story i (.crashed : Phase τ) es) : .crashed i ∈ es := by
  cases h with
  | crashed n => simp

/-- A run that is over and has neither failed nor crashed was successful. -/
lemma succeeded_mem (h : Story i phase es) (hover : phase.isOver = true)
    (hcrash : .crashed i ∉ es) (hfail : ∀ f, .failed i f ∉ es) : .succeeded i ∈ es := by
  cases h with
  | idle => cases hover
  | queued => cases hover
  | running job => cases hover
  | joining children => cases hover
  | failed f => exact absurd (by simp) (hfail f)
  | crashed n => simp at hcrash
  | _ => simp

end Story

/-! ### Runners -/

section

variable {σ τ : Type}

/-- A runner that comes back from every node: a run may fail, but not by a panic. -/
def Runner.Returns (r : Runner σ τ) : Prop :=
  ∀ node job world p, (r.finish node job world).1 ≠ .crashed p

/-- A runner that is successful with every node. -/
structure Runner.Succeeds (r : Runner σ τ) : Prop where
  start : ∀ node world, ∃ job, (r.start node world).1 = .ok job
  finish : ∀ node job world, (r.finish node job world).1 = .done

/-- The run of a node can fail with a fault. -/
def Runner.CanFail (r : Runner σ τ) (i : Nat) (f : Fault) : Prop :=
  ∃ node world, r.tree.node? i = some node ∧
    ((r.start node world).1 = .error f ∨ ∃ job, (r.finish node job world).1 = .failed f)

/-- A runner that notes which components it has run, and fails with some of them. -/
def Runner.recorder (tree : RenderTree) (settings : Settings) (failing : List String) :
    Runner (List String) Unit where
  tree := tree
  permits := settings.permits
  start _ names := (.ok (), names)
  finish node _ names :=
    if node.name ∈ failing then (.failed (.handlerFailed node.name "boom"), names)
    else (.done, names ++ [node.name])

lemma Runner.recorder_returns (tree : RenderTree) (settings : Settings) (failing : List String) :
    (Runner.recorder tree settings failing).Returns := by
  intro node job world p hp
  simp only [recorder] at hp
  split at hp <;> cases hp

variable {r : Runner σ τ}

lemma Runner.Succeeds.returns (hr : r.Succeeds) : r.Returns := by
  intro node job world p hp
  rw [hr.finish] at hp
  cases hp

lemma Runner.Succeeds.not_canFail (hr : r.Succeeds) {i : Nat} {f : Fault} : ¬r.CanFail i f := by
  rintro ⟨node, world, -, hf | ⟨job, hf⟩⟩
  · obtain ⟨job, hjob⟩ := hr.start node world
    rw [hjob] at hf
    cases hf
  · rw [hr.finish] at hf
    cases hf

end

namespace Dispatch

variable {σ τ : Type} {r : Runner σ τ} {d d' : Dispatch σ τ} {log es : List LogEntry}
  {m : Move} {moves : List Move} {i root : Nat} {world : σ}

namespace Coherent

lemma dispatched_of_mem (h : Coherent r log d) {e : LogEntry} (he : e ∈ log) :
    .dispatched e.node ∈ log := by
  by_contra hnot
  have hmem : e ∈ about log e.node := mem_about.mpr ⟨he, rfl⟩
  rw [h.about_of_not_dispatched hnot] at hmem
  cases hmem

/-- The story of any node of the tree. -/
lemma exists_story (h : Coherent r log d) (hi : i < r.tree.size) :
    ∃ phase, d.phase? i = some phase ∧ Story i phase (about log i) := by
  obtain ⟨phase, hphase⟩ := h.exists_phase hi
  exact ⟨phase, hphase, h.story hphase⟩

lemma count_le (h : Coherent r log d) {e : LogEntry}
    (he : ∀ {phase : Phase τ} {es}, Story e.node phase es → es.count e ≤ 1) : log.count e ≤ 1 := by
  rw [← count_about]
  by_cases hi : e.node < r.tree.size
  · obtain ⟨phase, -, hstory⟩ := h.exists_story hi
    exact he hstory
  · have hnil : about log e.node = [] := about_eq_nil fun x hx hxe => hi (hxe ▸ h.lt_size x hx)
    simp [hnil]

lemma count_started_le (h : Coherent r log d) (i : Nat) : log.count (.started i) ≤ 1 :=
  h.count_le Story.count_started_le

lemma count_succeeded_le (h : Coherent r log d) (i : Nat) : log.count (.succeeded i) ≤ 1 :=
  h.count_le Story.count_succeeded_le

/-- When the unit of the root is over, the units of all dispatched nodes are. -/
lemma isOver_of_dispatched (h : Coherent r log d) (ht : r.tree.Rooted) (hover : d.isOver 0 = true)
    (hi : .dispatched i ∈ log) : d.isOver i = true := by
  obtain ⟨k, hk⟩ := ht.reaches_root i (h.lt_size_of_dispatched hi)
  -- along the way up: a node is dispatched after its parent, and over before it
  induction k generalizing i with
  | zero =>
    cases hk
    exact hover
  | succ k ih =>
    rw [RenderTree.up_succ, Option.bind_eq_some_iff] at hk
    obtain ⟨p, hp, hk⟩ := hk
    have hs : .succeeded p ∈ log := h.succeeded_of_above hi (.single ((ht.mem_children p i).mpr hp))
    exact h.children_over hp hi (ih (h.dispatched_of_mem hs) hk)

/-- A unit that is over has run once. -/
lemma count_started (h : Coherent r log d) (hi : i < r.tree.size) (hover : d.isOver i = true) :
    log.count (.started i) = 1 := by
  obtain ⟨phase, hphase, hstory⟩ := h.exists_story hi
  rw [isOver_of_phase hphase] at hover
  rw [← count_about]
  exact hstory.count_started hover

/-- The run of a unit that is over has come to one end. -/
lemma countP_isEnd (h : Coherent r log d) (hi : i < r.tree.size) (hover : d.isOver i = true)
    (hcrash : .crashed i ∉ log) : (log.countP fun e => e.node = i && e.isEnd) = 1 := by
  obtain ⟨phase, hphase, hstory⟩ := h.exists_story hi
  rw [isOver_of_phase hphase] at hover
  rw [← countP_about]
  exact hstory.countP_isEnd hover fun hmem => hcrash (mem_about.mp hmem).1

/-- A unit that is over and has neither failed nor crashed was successful. -/
lemma succeeded_of_over (h : Coherent r log d) (hi : i < r.tree.size) (hover : d.isOver i = true)
    (hcrash : .crashed i ∉ log) (hfail : ∀ f, .failed i f ∉ log) : .succeeded i ∈ log := by
  obtain ⟨phase, hphase, hstory⟩ := h.exists_story hi
  rw [isOver_of_phase hphase] at hover
  have hmem : .succeeded i ∈ about log i := hstory.succeeded_mem hover
    (fun hc => hcrash (mem_about.mp hc).1) fun f hf => hfail f (mem_about.mp hf).1
  exact (mem_about.mp hmem).1

/-- A walk without a fault has reached every node when all that has been dispatched is over. -/
lemma succeeded_of_all_over (h : Coherent r log d) (ht : r.tree.Rooted)
    (hover : ∀ {i}, .dispatched i ∈ log → d.isOver i = true) (hcrash : ∀ i, .crashed i ∉ log)
    (hfail : ∀ i f, .failed i f ∉ log) (hi : i < r.tree.size) : .succeeded i ∈ log := by
  have hsucceeded {j : Nat} (hj : .dispatched j ∈ log) : .succeeded j ∈ log :=
    h.succeeded_of_over (h.lt_size_of_dispatched hj) (hover hj) (hcrash j) (hfail j)
  -- along the way up again: without a failure, success of the parent is all that a dispatch takes
  obtain ⟨k, hk⟩ := ht.reaches_root i hi
  induction k generalizing i with
  | zero =>
    cases hk
    exact hsucceeded (h.dispatched_iff.mpr ⟨hi, Or.inl rfl⟩)
  | succ k ih =>
    rw [RenderTree.up_succ, Option.bind_eq_some_iff] at hk
    obtain ⟨p, hp, hk⟩ := hk
    refine hsucceeded (h.dispatched_iff.mpr ⟨hi, Or.inr ⟨p, hp, ?_⟩⟩)
    rw [sound_eq_self (findSome?_fault_eq_none_iff.mpr hfail)]
    exact ih (ht.parent_lt hp) hk

/-- What runs is the root, and the children of the nodes that succeed before the first failure. -/
lemma dispatched_iff_root_or_child (h : Coherent r log d) (ht : r.tree.Rooted) :
    .dispatched i ∈ log ↔
      r.tree.root? = some i ∨ ∃ p, .succeeded p ∈ sound log ∧ i ∈ r.tree.children p := by
  simp only [h.dispatched_iff, ht.root?_eq, ht.mem_children]
  constructor
  · rintro ⟨hi, rfl | ⟨p, hp, hs⟩⟩
    · exact Or.inl (if_neg (Nat.ne_of_gt hi))
    · exact Or.inr ⟨p, hs, hp⟩
  · rintro (hroot | ⟨p, hs, hp⟩)
    · split at hroot
      · cases hroot
      · next h0 =>
        cases hroot
        exact ⟨Nat.pos_of_ne_zero h0, Or.inl rfl⟩
    · exact ⟨RenderTree.lt_size_of_parent hp, Or.inr ⟨p, hp, hs⟩⟩

lemma crashedAmong_eq_nil (h : Coherent r log d) (hcrash : ∀ i, .crashed i ∉ log)
    (nodes : List Nat) : d.crashedAmong nodes = [] := by
  refine eq_nil_iff_forall_not_mem.mpr fun c hc => hcrash c ?_
  exact (mem_about.mp (h.story (mem_crashedAmong.mp hc).2).crashed_mem).1

/-- In a tree without nodes there is nothing to tell. -/
lemma empty (hsize : r.tree.size = 0) (world : σ) : Coherent r [] ⟨⟨[], [], none⟩, #[], world⟩ where
  size_eq := hsize.symm
  lt_size e he := by cases he
  walk_eq := rfl
  story hj := by simp [phase?] at hj
  joining hj := by simp [phase?] at hj
  children_over _ hc := by cases hc
  above he := by cases he
  dispatched_iff := by simp [hsize]
  last_dispatch := by simp

lemma result_eq (h : Coherent r log d) (hcrash : ∀ i, .crashed i ∉ log) :
    d.result root = (Walk.ofLog log).result := by
  rw [result, walk_noticeCrashes h.walk_eq, h.crashedAmong_eq_nil hcrash, map_nil, append_nil]

end Coherent

lemma Rule.crashed_not_mem (hr : r.Returns) (hrule : Rule r d m es d') : .crashed i ∉ es := by
  cases hrule with
  | crash j node job p w hphase hnode hfinish =>
    exact absurd (congrArg Prod.fst hfinish) (hr node job d.world p)
  | _ => simp

lemma Course.crashed_not_mem (ht : r.tree.Rooted) (hroot : r.tree.root? = some root)
    (hr : r.Returns) (h : Course r root world moves log d) (i : Nat) : .crashed i ∉ log := by
  induction h with
  | initial => simp
  | move m h hm ih =>
    rw [mem_append, not_or]
    exact ⟨ih, (Rule.of_move? (h.coherent ht hroot).size_eq hm).crashed_not_mem hr⟩

lemma Rule.canFail_of_failed (hrule : Rule r d m es d')
    (hcrash : ∀ nodes, d.crashedAmong nodes = []) {f : Fault} (hf : .failed i f ∈ es) :
    r.CanFail i f := by
  cases hrule with
  | launch => simp at hf
  | refuse j node g w hphase hpermit hnode hstart =>
    obtain ⟨rfl, rfl⟩ : i = j ∧ f = g := by simpa using hf
    exact ⟨node, d.world, hnode, Or.inl (by rw [hstart])⟩
  | succeed => simp at hf
  | fail j node job g w hphase hnode hfinish =>
    obtain ⟨rfl, rfl⟩ : i = j ∧ f = g := by simpa using hf
    exact ⟨node, d.world, hnode, Or.inr ⟨job, by rw [hfinish]⟩⟩
  | crash => simp at hf
  | join j children hphase hover =>
    rw [hcrash] at hf
    simp at hf

/-- Without crashes, the only faults are those of the runner. -/
lemma Course.canFail_of_failed (ht : r.tree.Rooted) (hroot : r.tree.root? = some root)
    (hr : r.Returns) (h : Course r root world moves log d) {f : Fault} (hf : .failed i f ∈ log) :
    r.CanFail i f := by
  induction h with
  | initial => simp at hf
  | move m h hm ih =>
    have hd := h.coherent ht hroot
    rcases mem_append.mp hf with hf | hf
    · exact ih hf
    · exact (Rule.of_move? hd.size_eq hm).canFail_of_failed
        (hd.crashedAmong_eq_nil (h.crashed_not_mem ht hroot hr)) hf

namespace Execution

variable {outcome : Except Fault (List Nat)} {world' : σ}

/-- At the end of a walk, the log is coherent with a state in which all that has been dispatched is
over. -/
lemma exists_coherent (ht : r.tree.Rooted) (h : Execution r world moves log outcome world') :
    ∃ d : Dispatch σ τ, Coherent r log d ∧ ∀ {i}, .dispatched i ∈ log → d.isOver i = true := by
  cases h with
  | empty hroot =>
    refine ⟨_, .empty ?_ world, fun hi => by cases hi⟩
    by_contra h0
    rw [ht.root?_eq, if_neg h0] at hroot
    cases hroot
  | ended hroot h hover =>
    have hd := h.coherent ht hroot
    obtain ⟨rfl, -⟩ := ht.root?_eq_some hroot
    exact ⟨_, hd, hd.isOver_of_dispatched ht hover⟩

lemma crashed_not_mem (ht : r.tree.Rooted) (hr : r.Returns)
    (h : Execution r world moves log outcome world') (i : Nat) : .crashed i ∉ log := by
  cases h with
  | empty hroot => simp
  | ended hroot h hover => exact h.crashed_not_mem ht hroot hr i

lemma canFail_of_failed (ht : r.tree.Rooted) (hr : r.Returns)
    (h : Execution r world moves log outcome world') {f : Fault} (hf : .failed i f ∈ log) :
    r.CanFail i f := by
  cases h with
  | empty hroot => cases hf
  | ended hroot h hover => exact h.canFail_of_failed ht hroot hr hf

/-- What is returned is read off the log. -/
lemma outcome_eq (ht : r.tree.Rooted) (hr : r.Returns)
    (h : Execution r world moves log outcome world') : outcome = (Walk.ofLog log).result := by
  cases h with
  | empty hroot => rfl
  | ended hroot h hover => exact (h.coherent ht hroot).result_eq (h.crashed_not_mem ht hroot hr)

end Execution

end Dispatch

end PageRender
