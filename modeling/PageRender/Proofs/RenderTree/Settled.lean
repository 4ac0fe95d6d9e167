import PageRender.Proofs.RenderTree.Groups
import PageRender.Proofs.RenderTree.Unmoved

/-!
# Where groups leave the nodes

The tree that is built, told without the moves that build it. A node waits for the component of the
last planned group that lists it, and for the one planned before it if there is no such group. The
children of a node are the one planned after it, unless a group lists that one, and then those of
its own group, without the ones that a later group moves away.
-/

namespace PageRender

open List

namespace RenderTree

variable {t t' : RenderTree} {steps : List Step} {parallel : Dict (List String)}
  {planned : List (Nat × List Nat)} {group : Nat × List Nat} {cs : List Nat} {p c i n : Nat}

/-- The component of the last planned group that lists a node. -/
def lastGroup? (planned : List (Nat × List Nat)) (i : Nat) : Option Nat :=
  (planned.reverse.find? fun group => i ∈ group.2).map Prod.fst

/-- The node that a node waits for in the end: the component of the last group that lists it, else
the one planned before it. -/
def settledParent? (planned : List (Nat × List Nat)) (i : Nat) : Option Nat :=
  match lastGroup? planned i with
  | some p => some p
  | none => if i = 0 then none else some (i - 1)

/-- The children that the group of a node lists, if it has one. -/
def ownChildren (planned : List (Nat × List Nat)) (i : Nat) : List Nat :=
  (planned.lookup i).getD []

/-- The nodes that wait for a node in the end, in a plan of some size: the one planned after it, if
no group lists that one, and then those of its own group that no later group lists. -/
def settledChildren (size : Nat) (planned : List (Nat × List Nat)) (i : Nat) : List Nat :=
  (if i + 1 < size ∧ lastGroup? planned (i + 1) = none then [i + 1] else []) ++
    (ownChildren planned i).filter fun c => lastGroup? planned c = some i

/-! ### One group -/

lemma attachAll_cons_eq_ok_iff : t.attachAll p (c :: cs) = .ok t' ↔
    ∃ u, t.attach p c = (.ok (), u) ∧ u.attachAll p cs = .ok t' := by
  simp only [attachAll, foldlM_cons, bind_eq_ok_iff, kept_eq_ok_iff]

lemma parent?_attachAll (h : t.attachAll p cs = .ok t') :
    t'.parent? i = if i ∈ cs then some p else t.parent? i := by
  induction cs generalizing t with
  | nil =>
    cases h
    simp
  | cons c cs ih =>
    obtain ⟨u, ha, h⟩ := attachAll_cons_eq_ok_iff.mp h
    obtain ⟨-, hc, -, -, rfl⟩ := attach_eq_ok_iff.mp ha
    rw [ih h, parent?_regraft hc]
    by_cases hi : i = c <;> simp [hi]

lemma parallel?_attachAll (h : t.attachAll p cs = .ok t') :
    t'.parallel? i = if i ∈ cs then (t.parallel? i).map fun _ => true else t.parallel? i := by
  induction cs generalizing t with
  | nil =>
    cases h
    simp
  | cons c cs ih =>
    obtain ⟨u, ha, h⟩ := attachAll_cons_eq_ok_iff.mp h
    obtain ⟨-, -, -, -, rfl⟩ := attach_eq_ok_iff.mp ha
    rw [ih h, parallel?_regraft]
    by_cases hi : i = c <;> by_cases hmem : i ∈ cs <;> simp [hi, hmem, Function.comp_def]

/-- A move takes the node from wherever it is. -/
lemma Rooted.children_regraft (h : t.Rooted) (hp : p < t.size) : (t.regraft p c).children i =
    (t.children i).filter (· ≠ c) ++ if i = p then [c] else [] := by
  rw [RenderTree.children_regraft hp]
  split
  · rfl
  · next hother =>
    congr 1
    symm
    apply filter_eq_self.mpr
    intro d hd
    have hne : d ≠ c := by
      rintro rfl
      exact hother ((h.mem_children i d).mp hd)
    simpa using hne

lemma Rooted.children_attachAll (ht : t.Rooted) (hcs : cs.Nodup) (h : t.attachAll p cs = .ok t') :
    t'.children i = (t.children i).filter (· ∉ cs) ++ if i = p then cs else [] := by
  induction cs generalizing t with
  | nil =>
    cases h
    simp
  | cons c cs ih =>
    obtain ⟨hnot, hcs⟩ := nodup_cons.mp hcs
    obtain ⟨u, ha, h⟩ := attachAll_cons_eq_ok_iff.mp h
    have hu : u.Rooted := ht.attach ha
    obtain ⟨hp, -, -, -, rfl⟩ := attach_eq_ok_iff.mp ha
    rw [ih hu hcs h, ht.children_regraft hp, filter_append, filter_filter]
    have hfilter : (t.children i).filter (fun a => decide (a ∉ cs) && decide (a ≠ c)) =
        (t.children i).filter (· ∉ c :: cs) := by
      simp [Bool.and_comm]
    rw [hfilter]
    by_cases hi : i = p <;> simp [hi, hnot]

/-! ### One group more -/

lemma lastGroup?_append_singleton : lastGroup? (planned ++ [group]) i =
    if i ∈ group.2 then some group.1 else lastGroup? planned i := by
  by_cases hi : i ∈ group.2 <;> simp [lastGroup?, hi]

lemma settledParent?_append_singleton : settledParent? (planned ++ [group]) i =
    if i ∈ group.2 then some group.1 else settledParent? planned i := by
  rw [settledParent?, lastGroup?_append_singleton]
  by_cases hi : i ∈ group.2 <;> simp [settledParent?, hi]

lemma lookup_of_not_mem (h : i ∉ planned.map Prod.fst) : planned.lookup i = none := by
  rw [lookup_eq_none_iff]
  intro group hgroup
  have hne : i ≠ group.1 := by
    rintro rfl
    exact h (mem_map_of_mem hgroup)
  simpa using hne

lemma ownChildren_append_singleton (hgroup : group.1 ∉ planned.map Prod.fst) :
    ownChildren (planned ++ [group]) i =
      if i = group.1 then group.2 else ownChildren planned i := by
  obtain ⟨p, children⟩ := group
  rw [ownChildren, ownChildren, lookup_append]
  by_cases hi : i = p
  · simp [hi, lookup_of_not_mem hgroup]
  · simp [hi, lookup_cons, beq_eq_false_iff_ne.mpr hi]

lemma settledChildren_append_singleton (hgroup : group.1 ∉ planned.map Prod.fst) :
    settledChildren n (planned ++ [group]) i =
      (settledChildren n planned i).filter (· ∉ group.2) ++
        if i = group.1 then group.2 else [] := by
  have hserial : (if i + 1 < n ∧ lastGroup? (planned ++ [group]) (i + 1) = none then [i + 1]
      else []) = (if i + 1 < n ∧ lastGroup? planned (i + 1) = none then [i + 1] else []).filter
        (· ∉ group.2) := by
    rw [lastGroup?_append_singleton]
    by_cases hi : i + 1 ∈ group.2
    · by_cases hn : i + 1 < n ∧ lastGroup? planned (i + 1) = none <;> simp [hi, hn]
    · by_cases hn : i + 1 < n ∧ lastGroup? planned (i + 1) = none <;> simp [hi, hn]
  rw [settledChildren, settledChildren, hserial, ownChildren_append_singleton hgroup,
    filter_append, append_assoc]
  congr 1
  simp only [lastGroup?_append_singleton]
  by_cases hi : i = group.1
  · have hnone : ownChildren planned i = [] := by
      rw [ownChildren, lookup_of_not_mem (hi ▸ hgroup)]
      rfl
    have hall : group.2.filter (fun c => (if c ∈ group.2 then some group.1
        else lastGroup? planned c) = some i) = group.2 := by
      apply filter_eq_self.mpr
      intro c hc
      simp [hc, hi]
    rw [if_pos hi, if_pos hi, hall, hnone]
    rfl
  · rw [if_neg hi, if_neg hi, append_nil, filter_filter]
    apply filter_congr
    intro c _
    by_cases hc : c ∈ group.2 <;> simp [hc, Ne.symm hi]

/-! ### All groups -/

/-- A tree in which the nodes are where groups leave them. -/
structure Settled (t : RenderTree) (size : Nat) (planned : List (Nat × List Nat)) : Prop where
  rooted : t.Rooted
  size_eq : t.size = size
  parent_eq : ∀ i < size, t.parent? i = settledParent? planned i
  parallel_eq : ∀ i < size, t.parallel? i = some (lastGroup? planned i).isSome
  children_eq : ∀ i < size, t.children i = settledChildren size planned i

lemma settled_serial : (serial steps).Settled steps.length [] where
  rooted := rooted_serial steps
  size_eq := size_serial
  parent_eq i hi := by
    by_cases h0 : i = 0 <;> simp [parent?_serial, settledParent?, lastGroup?, hi, h0]
  parallel_eq i hi := by
    simp [parallel?, node?, serial, lastGroup?, hi]
  children_eq i hi := by
    simp [children_serial, settledChildren, ownChildren, lastGroup?]

lemma Settled.attachAll (h : t.Settled n planned) (hgroup : group.1 ∉ planned.map Prod.fst)
    (hchildren : group.2.Nodup) (ha : t.attachAll group.1 group.2 = .ok t') :
    t'.Settled n (planned ++ [group]) where
  rooted := h.rooted.moves (moves_of_attachAll ha)
  size_eq := by rw [(moves_of_attachAll ha).size_eq, h.size_eq]
  parent_eq i hi := by
    rw [parent?_attachAll ha, settledParent?_append_singleton, h.parent_eq i hi]
  parallel_eq i hi := by
    rw [parallel?_attachAll ha, lastGroup?_append_singleton, h.parallel_eq i hi]
    split <;> rfl
  children_eq i hi := by
    rw [h.rooted.children_attachAll hchildren ha, settledChildren_append_singleton hgroup,
      h.children_eq i hi]

lemma settled_of_foldlM (hparents : (planned.map Prod.fst).Nodup)
    (hchildren : ∀ group ∈ planned, group.2.Nodup)
    (h : planned.foldlM (fun t group => t.attachAll group.1 group.2) (serial steps) = .ok t) :
    t.Settled steps.length planned := by
  induction planned using reverseRecOn generalizing t with
  | nil =>
    cases h
    exact settled_serial
  | append_singleton planned group ih =>
    rw [foldlM_append, bind_eq_ok_iff] at h
    obtain ⟨u, hu, h⟩ := h
    rw [foldlM_cons, bind_eq_ok_iff] at h
    obtain ⟨t', ha, hlast⟩ := h
    cases hlast
    rw [map_append, nodup_append] at hparents
    obtain ⟨hparents, -, hfresh⟩ := hparents
    have hu : u.Settled steps.length planned :=
      ih hparents (fun other hother => hchildren other (mem_append_left _ hother)) hu
    refine hu.attachAll ?_ (hchildren group (by simp)) ha
    intro hmem
    exact hfresh _ hmem group.1 (by simp) rfl

lemma settled_of_build (h : build steps parallel = .ok t) :
    t.Settled steps.length (plannedGroups (steps.map Step.name) parallel.entries) := by
  rw [build_eq_foldlM] at h
  exact settled_of_foldlM (nodup_plannedGroups parallel.nodup)
    (fun group => nodup_of_mem_plannedGroups) h

/-! ### What groups may leave out -/

/-- The groups of a page without components that are not planned and without repetitions. -/
def tidied (names : List String) (parallel : Dict (List String)) : Dict (List String) where
  entries := (parallel.entries.filter (·.1 ∈ names)).map fun group =>
    (group.1, (group.2.filter (· ∈ names)).eraseDups)
  nodup := by
    have hkeys : Entries.keys ((parallel.entries.filter (·.1 ∈ names)).map fun group =>
        (group.1, (group.2.filter (· ∈ names)).eraseDups)) =
          Entries.keys (parallel.entries.filter (·.1 ∈ names)) := by
      simp [Entries.keys, Function.comp_def]
    rw [hkeys]
    exact parallel.nodup.sublist (filter_sublist.map Prod.fst)

lemma plannedGroups_tidied (names : List String) (parallel : Dict (List String)) :
    plannedGroups names (tidied names parallel).entries = plannedGroups names parallel.entries := by
  simp only [plannedGroups, tidied, filterMap_map, filterMap_filter]
  apply filterMap_congr
  intro group _
  by_cases hparent : group.1 ∈ names
  · have hchildren : (group.2.filter (· ∈ names)).filterMap (lastPlace? · names) =
        group.2.filterMap (lastPlace? · names) := by
      rw [filterMap_filter]
      apply filterMap_congr
      intro child _
      by_cases hchild : child ∈ names
      · simp [hchild]
      · simp [hchild, lastPlace?_eq_none_iff.mpr hchild]
    simp [hparent, plannedGroup?, eraseDups_filterMap_eraseDups, hchildren]
  · simp [hparent, plannedGroup?, lastPlace?_eq_none_iff.mpr hparent]

lemma build_tidied (steps : List Step) (parallel : Dict (List String)) :
    build steps (tidied (steps.map Step.name) parallel) = build steps parallel := by
  rw [build_eq_foldlM, plannedGroups_tidied, ← build_eq_foldlM]

/-- Where the nodes of a tree are that has been built: each waits for the component of the last
planned group that lists it, with a parallel edge, or for the one planned before it if there is no
such group. The children are the node planned next, unless a group lists it, and then those of the
node's own group, in the order in which it first names them, without those that a later group moves.
What is not planned, and what a group names again, could as well have been left out. -/
theorem build_settles (steps : List Step) (parallel : Dict (List String)) :
    let names := steps.map Step.name
    let planned := plannedGroups names parallel.entries
    (∀ t, build steps parallel = .ok t → t.size = steps.length ∧ ∀ i < steps.length,
      t.step? i = steps[i]? ∧
      t.parent? i = settledParent? planned i ∧
      t.parallel? i = some (lastGroup? planned i).isSome ∧
      t.children i = settledChildren steps.length planned i) ∧
    build steps (tidied names parallel) = build steps parallel := by
  intro names planned
  refine ⟨?_, build_tidied steps parallel⟩
  intro t h
  have hsettled := settled_of_build h
  refine ⟨hsettled.size_eq, ?_⟩
  intro i hi
  exact ⟨step?_build h i, hsettled.parent_eq i hi, hsettled.parallel_eq i hi,
    hsettled.children_eq i hi⟩

/-- A component that is planned twice has its later place, a group that is not planned moves
nothing, and the last of three groups takes the child of the first. -/
theorem build_settles_overlapping :
    ∃ t, build (["head", "list", "note", "list", "chart"].map Step.plain)
        (.ofList [("list", ["chart", "ghost", "chart"]), ("ghost", ["chart"]),
          ("head", ["note", "list"]), ("note", ["chart"])]) = .ok t ∧
      ((List.range 5).map t.parent? = [none, some 0, some 0, some 0, some 2]) ∧
      ((List.range 5).map t.children = [[1, 2, 3], [], [4], [], []]) := by
  obtain ⟨t, ht⟩ : ∃ t, build (["head", "list", "note", "list", "chart"].map Step.plain)
      (.ofList [("list", ["chart", "ghost", "chart"]), ("ghost", ["chart"]),
        ("head", ["note", "list"]), ("note", ["chart"])]) = .ok t :=
    exists_ok_of_toBool (by decide +kernel)
  obtain ⟨-, hnodes⟩ := (build_settles _ _).1 t ht
  refine ⟨t, ht, ?_, ?_⟩
  · rw [map_congr_left (l := range 5) fun i hi => (hnodes i (mem_range.mp hi)).2.1]
    decide
  · rw [map_congr_left (l := range 5) fun i hi => (hnodes i (mem_range.mp hi)).2.2.2]
    decide

end RenderTree

end PageRender
