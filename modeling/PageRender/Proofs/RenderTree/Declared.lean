import PageRender.Proofs.RenderTree.Groups
import PageRender.Proofs.RenderTree.Rooted

/-!
# Moves that can all be made

Which series of moves a serial tree allows. After moves that were possible, a node waits for the one
that it was last moved under, or for the one planned before it if it was never moved. So a tree need
not be built to know whether a move is possible: it is, unless the moved node is upstream of the
other.

Parallel groups declare such a series: building a tree is making the moves of the planned groups one
after the other. Where no component is planned twice, and no group names a child twice, they are the
moves that the groups declare.
-/

namespace PageRender

open List

namespace RenderTree

variable {t t' : RenderTree} {steps : List Step} {calls : List (Nat × Nat)} {p c i : Nat}

/-- Move nodes one after the other, each pair naming the new parent and the node. -/
def attachCalls (t : RenderTree) (calls : List (Nat × Nat)) : Except TreeFault RenderTree :=
  calls.foldlM (fun t call => kept (t.attach call.1 call.2)) t

/-- The node that a node waits for after moves: the one that it was last moved under, else the one
planned before it. -/
def waitsFor (calls : List (Nat × Nat)) (i : Nat) : Option Nat :=
  match calls.reverse.find? fun call => call.2 = i with
  | some call => some call.1
  | none => if i = 0 then none else some (i - 1)

/-- After moves, a node is upstream of another if it is that one, or one that it waits for, directly
or not. -/
def Upstream (calls : List (Nat × Nat)) (c p : Nat) : Prop :=
  Relation.ReflTransGen (fun i j => waitsFor calls i = some j) p c

/-- No node is moved under one that it is upstream of when its turn comes. -/
def Feasible (calls : List (Nat × Nat)) : Prop :=
  ∀ before p c after, calls = before ++ (p, c) :: after → ¬Upstream before c p

/-! ### One move more -/

lemma waitsFor_nil : waitsFor [] i = if i = 0 then none else some (i - 1) := rfl

lemma waitsFor_append_singleton :
    waitsFor (calls ++ [(p, c)]) i = if i = c then some p else waitsFor calls i := by
  by_cases h : i = c
  · simp [waitsFor, h]
  · simp [waitsFor, h, Ne.symm h]

/-- A node waits for one that it was moved under, or for the one planned before it. -/
lemma mem_or_pred_of_waitsFor (h : waitsFor calls i = some p) :
    (p, i) ∈ calls ∨ (∀ q, (q, i) ∉ calls) ∧ p + 1 = i := by
  induction calls using reverseRecOn with
  | nil =>
    rw [waitsFor_nil] at h
    split at h
    · cases h
    · cases h
      exact Or.inr ⟨by simp, by omega⟩
  | append_singleton calls call ih =>
    obtain ⟨q, c⟩ := call
    rw [waitsFor_append_singleton] at h
    split at h
    · next hi =>
      cases h
      exact Or.inl (by simp [hi])
    · next hi =>
      rcases ih h with hcall | ⟨hnot, hpred⟩
      · exact Or.inl (mem_append_left _ hcall)
      · refine Or.inr ⟨?_, hpred⟩
        intro q'
        simp [hnot q', hi]

lemma eq_zero_of_waitsFor (h : waitsFor calls i = none) : i = 0 ∧ ∀ q, (q, i) ∉ calls := by
  rw [waitsFor] at h
  split at h
  · cases h
  · next hnone =>
    refine ⟨by simpa using h, ?_⟩
    intro q hcall
    simpa using find?_eq_none.mp hnone (q, i) (by simpa using hcall)

lemma feasible_nil : Feasible [] := by
  intro before p c after h
  simp at h

lemma feasible_append_singleton :
    Feasible (calls ++ [(p, c)]) ↔ Feasible calls ∧ ¬Upstream calls c p := by
  constructor
  · intro h
    refine ⟨?_, h calls p c [] rfl⟩
    intro before q d after hcalls
    apply h before q d (after ++ [(p, c)])
    simp [hcalls]
  · rintro ⟨hcalls, hlast⟩ before q d after hsplit
    cases after using reverseRecOn with
    | nil =>
      obtain ⟨rfl, hcall⟩ := append_inj' hsplit rfl
      cases hcall
      exact hlast
    | append_singleton after call _ =>
      rw [← cons_append, ← append_assoc] at hsplit
      exact hcalls before q d after (append_inj' hsplit rfl).1

lemma attachCalls_append_singleton : t.attachCalls (calls ++ [(p, c)]) =
    t.attachCalls calls >>= fun t => kept (t.attach p c) := by
  simp [attachCalls, foldlM_append]

/-! ### Series of moves -/

lemma moves_of_attachCalls (h : t.attachCalls calls = .ok t') : Moves t t' :=
  foldlM_keeps (P := Moves t)
    (fun _ call _ ha hm => hm.tail ⟨call.1, call.2, kept_eq_ok_iff.mp ha⟩) h .refl

/-- Where the nodes of the tree are after moves. -/
lemma parent?_attachCalls (h : (serial steps).attachCalls calls = .ok t) (hi : i < steps.length) :
    t.parent? i = waitsFor calls i := by
  induction calls using reverseRecOn generalizing t with
  | nil =>
    cases h
    simp [parent?_serial, waitsFor_nil, hi]
  | append_singleton calls call ih =>
    rw [attachCalls_append_singleton, bind_eq_ok_iff] at h
    obtain ⟨u, hu, ha⟩ := h
    obtain ⟨-, hc, -, -, rfl⟩ := attach_eq_ok_iff.mp (kept_eq_ok_iff.mp ha)
    rw [parent?_regraft hc, waitsFor_append_singleton, ih hu]

section

variable (ht : t.Rooted) (hwaits : ∀ i < t.size, t.parent? i = waitsFor calls i)

include ht hwaits

/-- The way up in the tree is the one that the moves tell. -/
lemma upstream_iff_above (hp : p < t.size) : Upstream calls c p ↔ p = c ∨ t.Above c p := by
  constructor
  · intro h
    have hway : (p = c ∨ t.Above c p) ∧ c < t.size := by
      induction h with
      | refl => exact ⟨Or.inl rfl, hp⟩
      | @tail x y _ hxy ih =>
        obtain ⟨hx, hlt⟩ := ih
        rw [← hwaits x hlt] at hxy
        have hlink : t.Above y x := .single ((ht.mem_children y x).mpr hxy)
        refine ⟨Or.inr ?_, ht.parent_lt hxy⟩
        rcases hx with rfl | hx
        · exact hlink
        · exact hlink.trans hx
    exact hway.1
  · rintro (rfl | h)
    · exact .refl
    · apply Relation.TransGen.to_reflTransGen
      apply Relation.transGen_swap.mp
      refine Relation.TransGen.mono ?_ _ _ h
      intro a b hab
      rw [ht.mem_children] at hab
      exact (hwaits b (lt_size_of_parent hab)).symm.trans hab

lemma attach_eq_ok_iff_not_upstream (hp : p < t.size) (hc : c < t.size) :
    (∃ t', t.attach p c = (.ok (), t')) ↔ ¬Upstream calls c p := by
  simp only [attach_eq_ok_iff, upstream_iff_above ht hwaits hp, ← ht.isAncestor_iff, not_or,
    Bool.not_eq_true]
  constructor
  · rintro ⟨t', -, -, hne, hanc, -⟩
    exact ⟨hne, hanc⟩
  · rintro ⟨hne, hanc⟩
    exact ⟨_, hp, hc, hne, hanc, rfl⟩

end

/-- All moves are possible exactly if none of them would make a node wait for itself. -/
theorem exists_attachCalls_iff
    (hcalls : ∀ call ∈ calls, call.1 < steps.length ∧ call.2 < steps.length) :
    (∃ t, (serial steps).attachCalls calls = .ok t) ↔ Feasible calls := by
  induction calls using reverseRecOn with
  | nil => exact iff_of_true ⟨_, rfl⟩ feasible_nil
  | append_singleton calls call ih =>
    obtain ⟨p, c⟩ := call
    obtain ⟨hp, hc⟩ : p < steps.length ∧ c < steps.length := hcalls (p, c) (by simp)
    have hfirst := ih fun call hcall => hcalls call (mem_append_left _ hcall)
    have hlast {t : RenderTree} (ht : (serial steps).attachCalls calls = .ok t) :
        (∃ t', t.attach p c = (.ok (), t')) ↔ ¬Upstream calls c p := by
      have hmoves := moves_of_attachCalls ht
      have hsize : t.size = steps.length := by rw [hmoves.size_eq, size_serial]
      refine attach_eq_ok_iff_not_upstream ((rooted_serial steps).moves hmoves) ?_ ?_ ?_
      · intro i hi
        exact parent?_attachCalls ht (hsize ▸ hi)
      · rwa [hsize]
      · rwa [hsize]
    rw [feasible_append_singleton, ← hfirst]
    simp only [attachCalls_append_singleton, bind_eq_ok_iff, kept_eq_ok_iff]
    constructor
    · rintro ⟨t', t, ht, ha⟩
      exact ⟨⟨t, ht⟩, (hlast ht).mp ⟨t', ha⟩⟩
    · rintro ⟨⟨t, ht⟩, hup⟩
      obtain ⟨t', ha⟩ := (hlast ht).mpr hup
      exact ⟨t', t, ht, ha⟩

/-- If nodes are moved under earlier ones only, then nothing that is upstream of a node comes after
it. -/
lemma le_of_upstream (hcalls : ∀ call ∈ calls, call.1 < call.2) (h : Upstream calls c p) :
    c ≤ p := by
  induction h with
  | refl => exact Nat.le_refl p
  | @tail x y _ hxy ih =>
    refine Nat.le_trans ?_ ih
    rcases mem_or_pred_of_waitsFor hxy with hcall | ⟨-, rfl⟩
    · exact Nat.le_of_lt (hcalls (y, x) hcall)
    · exact Nat.le_succ y

lemma feasible_of_forward (hcalls : ∀ call ∈ calls, call.1 < call.2) : Feasible calls := by
  rintro before p c after rfl h
  have hle : c ≤ p := by
    refine le_of_upstream ?_ h
    intro call hcall
    exact hcalls call (mem_append_left _ hcall)
  have hlt : p < c := hcalls (p, c) (by simp)
  exact Nat.not_le_of_lt hlt hle

/-! ### The moves of planned groups -/

/-- The moves of planned groups, in the order of the groups and of their children. -/
def callsOf (planned : List (Nat × List Nat)) : List (Nat × Nat) :=
  planned.flatMap fun group => group.2.map (group.1, ·)

lemma mem_callsOf {planned : List (Nat × List Nat)} :
    (p, c) ∈ callsOf planned ↔ ∃ children, (p, children) ∈ planned ∧ c ∈ children := by
  simp [callsOf]

/-- The moves of a page are those of planned children under planned components. -/
lemma mem_callsOf_plannedGroups {names : List String} {groups : List (String × List String)} :
    (p, c) ∈ callsOf (plannedGroups names groups) ↔
      ∃ group ∈ groups, lastPlace? group.1 names = some p ∧
        ∃ child ∈ group.2, lastPlace? child names = some c := by
  simp only [mem_callsOf, plannedGroups, mem_filterMap]
  constructor
  · rintro ⟨children, ⟨group, hgroup, hplanned⟩, hc⟩
    obtain ⟨q, hq, hsame⟩ := Option.map_eq_some_iff.mp hplanned
    cases hsame
    exact ⟨group, hgroup, hq, (mem_plannedGroup? hplanned).mp hc⟩
  · rintro ⟨group, hgroup, hp, hc⟩
    have hplanned := plannedGroup?_eq hp
    exact ⟨_, ⟨group, hgroup, hplanned⟩, (mem_plannedGroup? hplanned).mpr hc⟩

lemma attachCalls_append {rest : List (Nat × Nat)} :
    t.attachCalls (calls ++ rest) = t.attachCalls calls >>= fun t => t.attachCalls rest := by
  simp [attachCalls, foldlM_append]

/-- Building a tree is making the moves of the planned groups. -/
theorem build_eq_callsOf (steps : List Step) (parallel : Dict (List String)) :
    build steps parallel = (serial steps).attachCalls
      (callsOf (plannedGroups (steps.map Step.name) parallel.entries)) := by
  rw [build_eq_foldlM]
  generalize serial steps = t
  induction plannedGroups (steps.map Step.name) parallel.entries generalizing t with
  | nil => rfl
  | cons group planned ih =>
    have hsplit : callsOf (group :: planned) = group.2.map (group.1, ·) ++ callsOf planned := by
      simp [callsOf]
    have hfirst : t.attachAll group.1 group.2 = t.attachCalls (group.2.map (group.1, ·)) := by
      rw [attachAll, attachCalls, foldlM_map]
    rw [foldlM_cons, hsplit, attachCalls_append, hfirst]
    cases t.attachCalls (group.2.map (group.1, ·)) with
    | error f => rfl
    | ok t' => exact ih t'

lemma lt_length_of_mem_callsOf {parallel : Dict (List String)}
    (h : (p, c) ∈ callsOf (plannedGroups (steps.map Step.name) parallel.entries)) :
    p < steps.length ∧ c < steps.length := by
  obtain ⟨group, -, hp, child, -, hc⟩ := mem_callsOf_plannedGroups.mp h
  rw [← length_map Step.name]
  exact ⟨lt_length_of_lastPlace? hp, lt_length_of_lastPlace? hc⟩

/-- A tree can be built exactly if the moves of the planned groups are possible. -/
lemma exists_build_iff_feasible {parallel : Dict (List String)} :
    (∃ t, build steps parallel = .ok t) ↔
      Feasible (callsOf (plannedGroups (steps.map Step.name) parallel.entries)) := by
  rw [build_eq_callsOf]
  apply exists_attachCalls_iff
  rintro ⟨p, c⟩ hcall
  exact lt_length_of_mem_callsOf hcall

/-! ### The moves that groups declare -/

/-- The moves that groups declare among planned components, in the order of the groups and of their
children: for each child the places of the group's component and of the child in the plan. -/
def declared (names : List String) (groups : List (String × List String)) : List (Nat × Nat) :=
  groups.flatMap fun group => group.2.filterMap fun child =>
    match names.idxOf? group.1, names.idxOf? child with
    | some p, some c => some (p, c)
    | _, _ => none

lemma mem_declared {names : List String} {groups : List (String × List String)} :
    (p, c) ∈ declared names groups ↔ ∃ parent children child, (parent, children) ∈ groups ∧
      child ∈ children ∧ names.idxOf? parent = some p ∧ names.idxOf? child = some c := by
  simp only [declared, mem_flatMap, mem_filterMap, Prod.exists]
  constructor
  · rintro ⟨parent, children, hgroup, child, hchild, hcall⟩
    split at hcall
    · next q d hp hc =>
      cases hcall
      exact ⟨parent, children, child, hgroup, hchild, hp, hc⟩
    · cases hcall
  · rintro ⟨parent, children, child, hgroup, hchild, hp, hc⟩
    refine ⟨parent, children, hgroup, child, hchild, ?_⟩
    rw [hp, hc]

/-- Where no component is planned twice, and no group names a child twice, the moves of the planned
groups are those that the groups declare. -/
lemma callsOf_plannedGroups {names : List String} {groups : List (String × List String)}
    (hnames : names.Nodup) (hchildren : ∀ group ∈ groups, group.2.Nodup) :
    callsOf (plannedGroups names groups) = declared names groups := by
  induction groups with
  | nil => rfl
  | cons group groups ih =>
    obtain ⟨hgroup, hgroups⟩ := forall_mem_cons.mp hchildren
    have hnodup : (group.2.filterMap (lastPlace? · names)).Nodup := by
      apply hgroup.filterMap
      intro child other i hi hother
      exact eq_of_lastPlace? hi hother
    have hfirst : (callsOf (plannedGroup? names group).toList) = declared names [group] := by
      rw [plannedGroup?, eraseDups_of_nodup hnodup, lastPlace?_eq_idxOf? hnames]
      simp only [declared, flatMap_cons, flatMap_nil, append_nil, lastPlace?_eq_idxOf? hnames]
      cases names.idxOf? group.1 with
      | none => simp [callsOf]
      | some p =>
        simp only [callsOf, Option.map_some, Option.toList_some, flatMap_cons, flatMap_nil,
          append_nil, map_filterMap]
        apply filterMap_congr
        intro child _
        cases names.idxOf? child <;> rfl
    have hsplit : callsOf (plannedGroups names (group :: groups)) =
        callsOf (plannedGroup? names group).toList ++ callsOf (plannedGroups names groups) := by
      rw [plannedGroups, filterMap_cons]
      cases plannedGroup? names group <;> simp [callsOf, plannedGroups]
    rw [hsplit, hfirst, ih hgroups]
    simp [declared]

end RenderTree

end PageRender
