import PageRender.Proofs.Dispatch.Coherent

/-!
# What every move keeps

Every move leads from a coherent state to a coherent one, so that every course ends in one, in
whatever order its moves are made. Moves are taken in two groups: those that end a run well may
dispatch nodes, and all others are quiet.
-/

namespace PageRender

open List

namespace Dispatch

variable {σ τ : Type} {r : Runner σ τ} {d d' : Dispatch σ τ} {log es : List LogEntry}
  {m : Move} {i c : Nat}

/-! ### Moves that neither end a run well nor dispatch -/

/-- Entries that are no success and no dispatch, of nodes that have been dispatched. -/
def Quiet (log es : List LogEntry) : Prop :=
  ∀ e ∈ es, e.dispatch? = none ∧ e.success? = none ∧ .dispatched e.node ∈ log

namespace Quiet

lemma dispatched_not_mem (hq : Quiet log es) : .dispatched c ∉ es := by
  intro hc
  have := (hq _ hc).1
  simp [LogEntry.dispatch?] at this

lemma succeeded_not_mem (hq : Quiet log es) : .succeeded c ∉ es := by
  intro hc
  have := (hq _ hc).2.1
  simp [LogEntry.success?] at this

lemma dispatched_mem_append (hq : Quiet log es) :
    .dispatched c ∈ log ++ es ↔ .dispatched c ∈ log := by
  rw [mem_append, or_iff_left hq.dispatched_not_mem]

lemma above (hq : Quiet log es) (h : Coherent r log d) {a : Nat} {e : LogEntry} (he : e ∈ log ++ es)
    (ha : r.tree.Above a e.node) : [.succeeded a, e] <+ log ++ es := by
  rw [pair_sublist_append]
  rcases mem_append.mp he with he | he
  · exact Or.inl (h.above he ha)
  · exact Or.inr (Or.inl ⟨h.succeeded_of_above (hq e he).2.2 ha, he⟩)

lemma dispatched_iff (hq : Quiet log es) (h : Coherent r log d) :
    .dispatched c ∈ log ++ es ↔ c < r.tree.size ∧
      (c = 0 ∨ ∃ p, r.tree.parent? c = some p ∧ .succeeded p ∈ sound (log ++ es)) := by
  rw [hq.dispatched_mem_append, h.dispatched_iff]
  simp only [succeeded_mem_sound_append hq.succeeded_not_mem]

lemma last_dispatch (hq : Quiet log es) (h : Coherent r log d) {f : Fault} :
    ¬[.failed i f, .dispatched c] <+ log ++ es := by
  rw [pair_sublist_append]
  rintro (hs | ⟨-, hc⟩ | hs)
  · exact h.last_dispatch hs
  · exact hq.dispatched_not_mem hc
  · exact hq.dispatched_not_mem (hs.subset (mem_cons_of_mem _ mem_cons_self))

end Quiet

lemma isOver_of_phase {phase : Phase τ} (h : d.phase? i = some phase) :
    d.isOver i = phase.isOver := by
  simp [isOver, h]

/-- A quiet move of one unit keeps a state coherent if the unit's own story goes on. -/
lemma Coherent.of_quiet (h : Coherent r log d) (hq : Quiet log es)
    (hwalk : d'.walk = .ofLog (log ++ es)) (hsize : d'.phases.size = d.phases.size)
    {old new : Phase τ} (hold : d.phase? i = some old)
    (hphase : ∀ j, d'.phase? j = if j = i then some new else d.phase? j)
    (hbusy : old.isOver = false) (hnew : ∀ children, new ≠ .joining children)
    (hstory : Story i new (about (log ++ es) i))
    (hothers : ∀ {j phase}, j ≠ i → d.phase? j = some phase → Story j phase (about (log ++ es) j))
    (hover : new.isOver = true → ∀ c, r.tree.parent? c = some i → .dispatched c ∈ log →
      d.isOver c = true) : Coherent r (log ++ es) d' where
  size_eq := by rw [hsize, h.size_eq]
  lt_size e he := by
    rcases mem_append.mp he with he | he
    · exact h.lt_size e he
    · exact h.lt_size_of_dispatched (hq e he).2.2
  walk_eq := hwalk
  story {j phase} hj := by
    rw [hphase] at hj
    split at hj
    · next hji =>
      cases hj
      exact hji ▸ hstory
    · next hji => exact hothers hji hj
  joining {j children} hj := by
    rw [hphase] at hj
    split at hj
    · exact absurd (Option.some.inj hj) (hnew children)
    · exact ⟨(h.joining hj).1, fun c hc => hq.dispatched_mem_append.mpr ((h.joining hj).2 c hc)⟩
  children_over {q c} hq' hc hqover := by
    rw [hq.dispatched_mem_append] at hc
    -- the unit that moves was not over, so that every other one stands where it stood
    have hsame {j : Nat} (hj : d.isOver j = true) : d'.isOver j = true := by
      have hji : j ≠ i := by
        rintro rfl
        rw [isOver_of_phase hold, hbusy] at hj
        cases hj
      rwa [isOver, hphase, if_neg hji]
    by_cases hqi : q = i
    · subst hqi
      rw [isOver, hphase, if_pos rfl] at hqover
      exact hsame (hover hqover c hq' hc)
    · rw [isOver, hphase, if_neg hqi] at hqover
      exact hsame (h.children_over hq' hc hqover)
  above he ha := hq.above h he ha
  dispatched_iff := hq.dispatched_iff h
  last_dispatch := hq.last_dispatch h

/-- A unit that waits for a permit or runs may take a quiet move of its own. -/
lemma Coherent.of_own {d₁ : Dispatch σ τ} (h : Coherent r log d) (ht : r.tree.Rooted)
    (hes : ∀ e ∈ es, e.dispatch? = none ∧ e.success? = none ∧ e.node = i)
    (hphases : d₁.phases = d.phases) {old new : Phase τ} (hold : d.phase? i = some old)
    (hbusy : (old.isQueued || old.isRunning) = true) (hnew : ∀ children, new ≠ .joining children)
    (hwalk : (d₁.setPhase i new).walk = .ofLog (log ++ es))
    (hstory : Story i new (about log i ++ es)) : Coherent r (log ++ es) (d₁.setPhase i new) := by
  have hi : .dispatched i ∈ log := h.dispatched_of_phase hold (by rintro rfl; cases hbusy)
  have hlt : i < d₁.phases.size := by
    rw [hphases]
    exact lt_size_of_phase hold
  have hphase (j : Nat) :
      (d₁.setPhase i new).phase? j = if j = i then some new else d.phase? j := by
    rw [phase?_setPhase hlt, phase?, hphases, phase?]
  have hover : old.isOver = false := by
    cases old with
    | finished => cases hbusy
    | crashed => cases hbusy
    | _ => rfl
  have hq : Quiet log es := by
    intro e he
    obtain ⟨hd, hs, hn⟩ := hes e he
    exact ⟨hd, hs, hn ▸ hi⟩
  have hown : about es i = es := filter_eq_self.mpr fun e he => by simpa using (hes e he).2.2
  refine h.of_quiet hq hwalk (by rw [size_setPhase, hphases]) hold hphase hover hnew
    (by rwa [about_append, hown]) (fun {j phase} hji hj => ?_) fun _ c hc hmem => ?_
  · have hnil : about es j = [] := about_eq_nil fun e he => (hes e he).2.2 ▸ Ne.symm hji
    rw [about_append, hnil, append_nil]
    exact h.story hj
  · -- none of its children has been dispatched
    exact absurd (h.succeeded_of_above hmem (.single ((ht.mem_children i c).mpr hc)))
      (h.succeeded_not_mem hold hbusy)

lemma about_crashes (crashed : List Nat) :
    about (crashed.map fun c => .failed c (crashFault c)) i =
      replicate (crashed.count i) (.failed i (crashFault i)) := by
  induction crashed with
  | nil => rfl
  | cons c crashed ih =>
    rw [map_cons, ← singleton_append, about_append, ih, count_cons]
    by_cases hc : c = i
    · subst hc
      simp [about, LogEntry.node, replicate_succ]
    · simp [about, LogEntry.node, hc]

lemma mem_crashedAmong {nodes : List Nat} :
    c ∈ d.crashedAmong nodes ↔ c ∈ nodes ∧ d.phase? c = some .crashed := by
  rw [crashedAmong, mem_filter, Option.any_eq_true]
  refine and_congr_right fun _ => ⟨?_, fun h => ⟨_, h, rfl⟩⟩
  rintro ⟨phase, hphase, hcrashed⟩
  cases phase with
  | crashed => exact hphase
  | _ => cases hcrashed

lemma Coherent.of_join (h : Coherent r log d) (ht : r.tree.Rooted) {children : List Nat}
    (hphase : d.phase? i = some (.joining children)) (hover : children.all d.isOver = true) :
    Coherent r
      (log ++ ((d.crashedAmong children).map (fun c => .failed c (crashFault c)) ++ [.joined i]))
      ((d.noticeCrashes children).setPhase i .finished) := by
  have hi : .dispatched i ∈ log := h.dispatched_of_phase hphase nofun
  have hwalk := (Rule.join (r := r) i children hphase hover).walk_eq h.walk_eq
  have hlt : i < (d.noticeCrashes children).phases.size := by
    rw [phases_noticeCrashes]
    exact lt_size_of_phase hphase
  refine h.of_quiet (fun e he => ?_) hwalk (by rw [size_setPhase, phases_noticeCrashes]) hphase
    (fun j => by rw [phase?_setPhase hlt, phase?_noticeCrashes]) rfl (by simp) ?_
    (fun {j phase} hji hj => ?_) fun _ c hc hmem => ?_
  · rcases mem_append.mp he with he | he
    · obtain ⟨c, hc, rfl⟩ := mem_map.mp he
      exact ⟨rfl, rfl, (h.joining hphase).2 c (mem_crashedAmong.mp hc).1⟩
    · rw [mem_singleton.mp he]
      exact ⟨rfl, rfl, hi⟩
  · have hcount : (d.crashedAmong children).count i = 0 := by
      refine count_eq_zero.mpr fun hmem => ?_
      rw [(mem_crashedAmong.mp hmem).2] at hphase
      cases hphase
    rw [about_append, about_append, about_crashes, hcount, (h.story hphase).eq_of_joining]
    simpa [about, LogEntry.node] using Story.joined
  · have hnil : about [.joined i] j = [] :=
      about_eq_nil (by simpa [LogEntry.node] using Ne.symm hji)
    rw [about_append, about_append, about_crashes, hnil, append_nil]
    -- what is told of other units is that their crashes have been noticed
    by_cases hmem : j ∈ d.crashedAmong children
    · rw [(mem_crashedAmong.mp hmem).2] at hj
      cases hj
      exact (h.story (mem_crashedAmong.mp hmem).2).noticed _
    · rw [count_eq_zero.mpr hmem, replicate_zero, append_nil]
      exact h.story hj
  · rw [(h.joining hphase).1] at hover
    exact all_eq_true.mp hover c ((ht.mem_children i c).mpr hc)

/-! ### Moves that end a run well -/

namespace Coherent

variable {job : τ} (h : Coherent r log d) (ht : r.tree.Rooted)
  (hphase : d.phase? i = some (.running job))

include h ht hphase

/-- A node that is done schedules all its children, unless there is a fault. -/
lemma wave_eq : d.wave r i =
    if (log.findSome? LogEntry.fault?).isNone then r.tree.children i else [] := by
  have hi : .succeeded i ∉ log := h.succeeded_not_mem hphase rfl
  cases hf : log.findSome? LogEntry.fault? with
  | some f =>
    rw [wave, Walk.complete_of_some (f := f) (by rw [h.walk_eq]; exact hf)]
    rfl
  | none =>
    rw [wave, Walk.complete_of_none (by rw [h.walk_eq]; exact hf), h.walk_eq]
    refine filter_eq_self.mpr fun c hc => ?_
    have hfresh : c ∉ log.filterMap LogEntry.dispatch? := by
      rw [mem_filterMap_dispatch]
      exact h.dispatched_not_mem_of_child hc hi
    simp [Walk.ofLog, hfresh, (ht.mem_children i c).mp hc]

lemma mem_wave : c ∈ d.wave r i ↔
    log.findSome? LogEntry.fault? = none ∧ r.tree.parent? c = some i := by
  rw [h.wave_eq ht hphase]
  cases log.findSome? LogEntry.fault? <;> simp [ht.mem_children]

lemma nodup_wave : (d.wave r i).Nodup := by
  rw [h.wave_eq ht hphase]
  split
  · exact ht.nodup_children i
  · exact nodup_nil

lemma lt_size_of_mem_wave (hc : c ∈ d.wave r i) : c < r.tree.size :=
  RenderTree.lt_size_of_parent ((h.mem_wave ht hphase).mp hc).2

lemma dispatched_not_mem_of_mem_wave (hc : c ∈ d.wave r i) : .dispatched c ∉ log :=
  h.dispatched_not_mem_of_child ((ht.mem_children i c).mpr ((h.mem_wave ht hphase).mp hc).2)
    (h.succeeded_not_mem hphase rfl)

lemma not_mem_wave_self : i ∉ d.wave r i := fun hi =>
  h.dispatched_not_mem_of_mem_wave ht hphase hi (h.dispatched_of_phase hphase nofun)

lemma phase?_succeed (w : σ) (j : Nat) : ({ d with world := w }.complete r i).phase? j =
    if j ∈ d.wave r i then some .queued
    else if j = i then some (if (d.wave r i).isEmpty then .finished else .joining (d.wave r i))
    else d.phase? j := by
  refine phase?_complete (d := { d with world := w }) (lt_size_of_phase hphase) fun c hc => ?_
  rw [h.size_eq]
  exact h.lt_size_of_mem_wave ht hphase hc

lemma about_succeed (j : Nat) : about (.succeeded i :: (d.wave r i).map .dispatched) j =
    (if j = i then [.succeeded i] else []) ++ if j ∈ d.wave r i then [.dispatched j] else [] := by
  rw [← singleton_append, about_append, about_dispatched (h.nodup_wave ht hphase)]
  congr 1
  by_cases hj : j = i <;> simp [about, LogEntry.node, hj, eq_comm]

lemma story_succeed (w : σ) {j : Nat} {phase : Phase τ}
    (hj : ({ d with world := w }.complete r i).phase? j = some phase) :
    Story j phase (about (log ++ .succeeded i :: (d.wave r i).map .dispatched) j) := by
  have hself : i ∉ d.wave r i := h.not_mem_wave_self ht hphase
  rw [about_append, h.about_succeed ht hphase]
  rw [h.phase?_succeed ht hphase] at hj
  split_ifs at hj with hjn hji hempty
  · cases hj
    have hne : j ≠ i := fun hji => hself (hji ▸ hjn)
    rw [h.about_of_not_dispatched (h.dispatched_not_mem_of_mem_wave ht hphase hjn), if_neg hne,
      if_pos hjn]
    exact .queued
  · cases hj
    rw [hji, (h.story hphase).eq_of_running, if_pos rfl, if_neg hself]
    exact .leaf
  · cases hj
    rw [hji, (h.story hphase).eq_of_running, if_pos rfl, if_neg hself]
    exact .joining (d.wave r i)
  · rw [if_neg hji, if_neg hjn]
    simpa using h.story hj

lemma joining_succeed (w : σ) {j : Nat} {children : List Nat}
    (hj : ({ d with world := w }.complete r i).phase? j = some (.joining children)) :
    children = r.tree.children j ∧
      ∀ c ∈ children, .dispatched c ∈ log ++ .succeeded i :: (d.wave r i).map .dispatched := by
  rw [h.phase?_succeed ht hphase] at hj
  split_ifs at hj with hjn hji hempty
  · cases hj
  · cases hj
  · cases hj
    refine ⟨?_, fun c hc => by simp [hc]⟩
    obtain ⟨c, hc⟩ := exists_mem_of_ne_nil (d.wave r i) (by simpa using hempty)
    rw [hji, h.wave_eq ht hphase, ((h.mem_wave ht hphase).mp hc).1]
    rfl
  · exact ⟨(h.joining hj).1, fun c hc => mem_append_left _ ((h.joining hj).2 c hc)⟩

lemma over_succeed (w : σ) {q : Nat} (hq : r.tree.parent? c = some q)
    (hc : .dispatched c ∈ log ++ .succeeded i :: (d.wave r i).map .dispatched)
    (hover : ({ d with world := w }.complete r i).isOver q = true) :
    ({ d with world := w }.complete r i).isOver c = true := by
  have hcases : .dispatched c ∈ log ∨ c ∈ d.wave r i := by simpa using hc
  rw [isOver, h.phase?_succeed ht hphase] at hover
  split_ifs at hover with hqn hqi hempty
  · cases hover
  · -- all children of the node are fresh, and none has been scheduled
    subst hqi
    rcases hcases with hc | hc
    · exact absurd (h.succeeded_of_above hc (.single ((ht.mem_children q c).mpr hq)))
        (h.succeeded_not_mem hphase rfl)
    · rw [isEmpty_iff.mp hempty] at hc
      cases hc
  · cases hover
  · rcases hcases with hc | hc
    · have hcn : c ∉ d.wave r i := fun hcn => h.dispatched_not_mem_of_mem_wave ht hphase hcn hc
      have hco : d.isOver c = true := h.children_over hq hc hover
      have hci : c ≠ i := by
        intro hci
        rw [hci, isOver_of_phase hphase] at hco
        cases hco
      rwa [isOver, h.phase?_succeed ht hphase, if_neg hcn, if_neg hci]
    · have := ((h.mem_wave ht hphase).mp hc).2
      rw [hq] at this
      exact absurd (Option.some.inj this) hqi

lemma above_succeed {a : Nat} {e : LogEntry}
    (he : e ∈ log ++ .succeeded i :: (d.wave r i).map .dispatched) (ha : r.tree.Above a e.node) :
    [.succeeded a, e] <+ log ++ .succeeded i :: (d.wave r i).map .dispatched := by
  have hi : .dispatched i ∈ log := h.dispatched_of_phase hphase nofun
  rw [pair_sublist_append]
  rcases mem_append.mp he with hlog | hes
  · exact Or.inl (h.above hlog ha)
  · refine Or.inr ?_
    rcases mem_cons.mp hes with rfl | hc
    · exact Or.inl ⟨h.succeeded_of_above hi ha, hes⟩
    · obtain ⟨c, hc', rfl⟩ := mem_map.mp hc
      rcases (ht.above_iff_of_parent ((h.mem_wave ht hphase).mp hc').2).mp ha with rfl | ha
      · exact Or.inr ((singleton_sublist.mpr hc).cons_cons _)
      · exact Or.inl ⟨h.succeeded_of_above hi ha, hes⟩

lemma dispatched_iff_succeed : .dispatched c ∈ log ++ .succeeded i :: (d.wave r i).map .dispatched ↔
    c < r.tree.size ∧ (c = 0 ∨ ∃ p, r.tree.parent? c = some p ∧
      .succeeded p ∈ sound (log ++ .succeeded i :: (d.wave r i).map .dispatched)) := by
  have hmem : .dispatched c ∈ log ++ .succeeded i :: (d.wave r i).map .dispatched ↔
      .dispatched c ∈ log ∨ c ∈ d.wave r i := by simp
  rw [hmem, h.dispatched_iff, h.mem_wave ht hphase]
  cases hf : log.findSome? LogEntry.fault? with
  | some f => simp [sound_append_of_some hf]
  | none =>
    have hes : sound (.succeeded i :: (d.wave r i).map .dispatched) =
        .succeeded i :: (d.wave r i).map .dispatched :=
      sound_eq_self (by simp [findSome?_eq_none_iff, LogEntry.fault?])
    rw [sound_append_of_none hf, hes, sound_eq_self hf]
    constructor
    · rintro (⟨hc, h0 | ⟨p, hp, hs⟩⟩ | ⟨-, hp⟩)
      · exact ⟨hc, Or.inl h0⟩
      · exact ⟨hc, Or.inr ⟨p, hp, mem_append_left _ hs⟩⟩
      · exact ⟨RenderTree.lt_size_of_parent hp, Or.inr ⟨i, hp, by simp⟩⟩
    · rintro ⟨hc, h0 | ⟨p, hp, hs⟩⟩
      · exact Or.inl ⟨hc, Or.inl h0⟩
      · rcases mem_append.mp hs with hs | hs
        · exact Or.inl ⟨hc, Or.inr ⟨p, hp, hs⟩⟩
        · obtain rfl : p = i := by simpa using hs
          exact Or.inr ⟨rfl, hp⟩

lemma last_dispatch_succeed {j : Nat} {f : Fault} :
    ¬[.failed j f, .dispatched c] <+ log ++ .succeeded i :: (d.wave r i).map .dispatched := by
  rw [pair_sublist_append]
  rintro (hs | ⟨hfail, hc⟩ | hs)
  · exact h.last_dispatch hs
  · have hnone := ((h.mem_wave ht hphase (c := c)).mp (by simpa using hc)).1
    have := findSome?_eq_none_iff.mp hnone _ hfail
    simp [LogEntry.fault?] at this
  · have := hs.subset mem_cons_self
    simp at this

lemma of_succeed (w : σ) : Coherent r (log ++ .succeeded i :: (d.wave r i).map .dispatched)
    ({ d with world := w }.complete r i) where
  size_eq := by simpa using h.size_eq
  lt_size e he := by
    rcases mem_append.mp he with he | he
    · exact h.lt_size e he
    · rcases mem_cons.mp he with rfl | he
      · exact h.lt_size_of_dispatched (h.dispatched_of_phase hphase nofun)
      · obtain ⟨c, hc, rfl⟩ := mem_map.mp he
        exact h.lt_size_of_mem_wave ht hphase hc
  walk_eq := walk_complete_eq h.walk_eq w
  story hj := h.story_succeed ht hphase w hj
  joining hj := h.joining_succeed ht hphase w hj
  children_over hq hc hover := h.over_succeed ht hphase w hq hc hover
  above he ha := h.above_succeed ht hphase he ha
  dispatched_iff := h.dispatched_iff_succeed ht hphase
  last_dispatch := h.last_dispatch_succeed ht hphase

end Coherent

/-! ### All moves -/

lemma Coherent.rule (h : Coherent r log d) (ht : r.tree.Rooted) (hrule : Rule r d m es d') :
    Coherent r (log ++ es) d' := by
  have hwalk := hrule.walk_eq h.walk_eq
  cases hrule with
  | launch i node job w hphase hpermit hnode hstart =>
    refine h.of_own ht ?_ (by rfl) hphase rfl (by simp) hwalk ?_
    · simp [LogEntry.dispatch?, LogEntry.success?, LogEntry.node]
    · rw [(h.story hphase).eq_of_queued]
      exact .running job
  | refuse i node f w hphase hpermit hnode hstart =>
    refine h.of_own ht ?_ (by rfl) hphase rfl (by simp) hwalk ?_
    · simp [LogEntry.dispatch?, LogEntry.success?, LogEntry.node]
    · rw [(h.story hphase).eq_of_queued]
      exact .failed f
  | succeed i node job w hphase hnode hfinish => exact h.of_succeed ht hphase w
  | fail i node job f w hphase hnode hfinish =>
    refine h.of_own ht ?_ (by rfl) hphase rfl (by simp) hwalk ?_
    · simp [LogEntry.dispatch?, LogEntry.success?, LogEntry.node]
    · rw [(h.story hphase).eq_of_running]
      exact .failed f
  | crash i node job p w hphase hnode hfinish =>
    refine h.of_own ht ?_ (by rfl) hphase rfl (by simp) hwalk ?_
    · simp [LogEntry.dispatch?, LogEntry.success?, LogEntry.node]
    · rw [(h.story hphase).eq_of_running]
      exact .crashed 0
  | join i children hphase hover => exact h.of_join ht hphase hover

lemma Coherent.move (h : Coherent r log d) (ht : r.tree.Rooted) (hm : d.move? r m = some d') :
    Coherent r (log ++ d.record r m) d' :=
  h.rule ht (.of_move? h.size_eq hm)

lemma phase?_initial {root : Nat} {world : σ} (hroot : root < r.tree.size) (j : Nat) :
    (initial r root world).phase? j =
      if j = root then some .queued else if j < r.tree.size then some .idle else none := by
  simp only [initial, phase?, Array.getElem?_setIfInBounds, Array.size_replicate]
  by_cases hj : j = root
  · subst hj
    simp [hroot]
  · simp [hj, Ne.symm hj, Array.getElem?_replicate]

lemma Coherent.initial (ht : r.tree.Rooted) (hsize : 0 < r.tree.size) (world : σ) :
    Coherent r [.dispatched 0] (initial r 0 world) where
  size_eq := by simp [Dispatch.initial]
  lt_size e he := by
    rw [mem_singleton.mp he]
    exact hsize
  walk_eq := rfl
  story {j phase} hj := by
    rw [phase?_initial hsize] at hj
    split_ifs at hj with h0 hlt
    · cases hj
      rw [h0]
      exact .queued
    · cases hj
      rw [about_eq_nil (by simpa [LogEntry.node] using Ne.symm h0)]
      exact .idle
  joining {j children} hj := by
    rw [phase?_initial hsize] at hj
    split_ifs at hj <;> cases hj
  children_over {p c} hp hc hover := by
    rw [isOver, phase?_initial hsize] at hover
    split_ifs at hover <;> cases hover
  above {a e} he ha := by
    rw [mem_singleton.mp he] at ha
    exact absurd ha ht.not_above_zero
  dispatched_iff {c} := by
    have hsound : sound [LogEntry.dispatched 0] = [.dispatched 0] := rfl
    rw [hsound]
    constructor
    · intro hc
      obtain rfl : c = 0 := by simpa using hc
      exact ⟨hsize, Or.inl rfl⟩
    · rintro ⟨-, rfl | ⟨p, hp, hs⟩⟩
      · exact mem_singleton_self _
      · cases mem_singleton.mp hs
  last_dispatch hs := by
    have := hs.length_le
    simp at this

/-- Every course ends in a coherent state. -/
lemma Course.coherent {root : Nat} {world : σ} {moves : List Move} (ht : r.tree.Rooted)
    (hroot : r.tree.root? = some root) (h : Course r root world moves log d) :
    Coherent r log d := by
  obtain ⟨rfl, hsize⟩ := ht.root?_eq_some hroot
  induction h with
  | initial => exact .initial ht hsize world
  | move m _ hm ih => exact ih.move ht hm

end Dispatch

end PageRender
