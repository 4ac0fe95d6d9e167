import PageRender.Proofs.RenderTree.Attach

/-!
# Parallel groups in a plan

What the parallel groups of a page come to in a plan. A component that is not planned, on either
side, has no place there, one that is planned several times has the last of its places, and a child
that a group names again is there already. A tree is built by moving what is left of each group, one
group after the other.
-/

namespace PageRender

open List

variable {α β : Type}

section

variable [BEq α] [LawfulBEq α]

lemma nodup_eraseDups (l : List α) : l.eraseDups.Nodup := by
  match l with
  | [] => simp
  | a :: l =>
    rw [eraseDups_cons, nodup_cons]
    refine ⟨?_, nodup_eraseDups _⟩
    simp
termination_by l.length
decreasing_by exact Nat.lt_succ_of_le (length_filter_le _ l)

lemma eraseDups_of_nodup {l : List α} (h : l.Nodup) : l.eraseDups = l := by
  induction l with
  | nil => rfl
  | cons a l ih =>
    obtain ⟨hnot, hl⟩ := nodup_cons.mp h
    have hfilter : (l.filter fun b => !b == a) = l := by
      apply filter_eq_self.mpr
      intro b hb
      have hne : b ≠ a := by
        rintro rfl
        exact hnot hb
      simp [hne]
    rw [eraseDups_cons, hfilter, ih hl]

/-- Repetitions may be left out before a change as well as after it. -/
lemma eraseDups_filterMap_eraseDups [BEq β] [LawfulBEq β] (f : α → Option β) (l : List α) :
    (l.eraseDups.filterMap f).eraseDups = (l.filterMap f).eraseDups := by
  match l with
  | [] => rfl
  | a :: l =>
    have hrest (g : α → Option β) (hg : g a = none) :
        ((l.filter fun b => !b == a).eraseDups.filterMap g).eraseDups =
          (l.filterMap g).eraseDups := by
      rw [eraseDups_filterMap_eraseDups, filterMap_filter]
      congr 1
      apply filterMap_congr
      intro b _
      by_cases hb : b = a
      · simp [hb, hg]
      · simp [hb]
    rw [eraseDups_cons]
    cases hf : f a with
    | none =>
      rw [filterMap_cons_none hf, filterMap_cons_none hf]
      exact hrest f hf
    | some b =>
      rw [filterMap_cons_some hf, filterMap_cons_some hf, eraseDups_cons, eraseDups_cons,
        filter_filterMap, filter_filterMap, hrest]
      simp [hf]
termination_by l.length
decreasing_by exact Nat.lt_succ_of_le (length_filter_le _ l)

end

namespace RenderTree

variable {t t' : RenderTree} {steps : List Step} {parallel : Dict (List String)}
  {names : List String} {name other : String} {groups : List (String × List String)}
  {p i k : Nat}

/-! ### Places -/

/-- The place of a component in a plan: the last one, should it be planned several times. -/
def lastPlace? (name : String) : List String → Option Nat
  | [] => none
  | other :: names =>
    match lastPlace? name names with
    | some i => some (i + 1)
    | none => if other = name then some 0 else none

lemma lastPlace?_eq_none_iff : lastPlace? name names = none ↔ name ∉ names := by
  induction names with
  | nil => simp [lastPlace?]
  | cons other names ih =>
    rw [mem_cons, not_or, ← ih, lastPlace?]
    cases lastPlace? name names with
    | none => simp [eq_comm]
    | some i => simp

lemma lastPlace?_cons : lastPlace? name (other :: names) =
    if name ∈ names then (lastPlace? name names).map (· + 1)
    else if other = name then some 0 else none := by
  rw [lastPlace?]
  split
  · next j hj =>
    have hmem : name ∈ names := by
      by_contra hnot
      rw [lastPlace?_eq_none_iff.mpr hnot] at hj
      cases hj
    rw [if_pos hmem, hj]
    rfl
  · next hnone => rw [if_neg (lastPlace?_eq_none_iff.mp hnone)]

lemma lastPlace?_eq_some_iff : lastPlace? name names = some i ↔
    names[i]? = some name ∧ ∀ k, i < k → names[k]? ≠ some name := by
  induction names generalizing i with
  | nil => simp [lastPlace?]
  | cons other names ih =>
    have hlater (i : Nat) : (∀ k, i < k → (other :: names)[k]? ≠ some name) ↔
        ∀ k, i ≤ k → names[k]? ≠ some name := by
      constructor
      · intro h k hk
        exact h (k + 1) (Nat.lt_succ_of_le hk)
      · intro h k hk
        cases k with
        | zero => cases hk
        | succ k => exact h k (Nat.le_of_lt_succ hk)
    rw [lastPlace?_cons, hlater]
    cases i with
    | zero =>
      have hnone : (∀ k, 0 ≤ k → names[k]? ≠ some name) ↔ name ∉ names := by
        simp [mem_iff_getElem?]
      rw [hnone]
      by_cases hmem : name ∈ names <;> simp [hmem]
    | succ i =>
      rw [getElem?_cons_succ]
      simp only [Nat.succ_le_iff]
      rw [← ih]
      by_cases hmem : name ∈ names
      · simp [hmem]
      · simp [hmem, lastPlace?_eq_none_iff.mpr hmem]

lemma lt_length_of_lastPlace? (h : lastPlace? name names = some i) : i < names.length := by
  obtain ⟨hi, -⟩ := List.getElem?_eq_some_iff.mp (lastPlace?_eq_some_iff.mp h).1
  exact hi

/-- Different components have different places. -/
lemma eq_of_lastPlace? (h : lastPlace? name names = some i)
    (hother : lastPlace? other names = some i) : name = other :=
  Option.some.inj <|
    (lastPlace?_eq_some_iff.mp h).1.symm.trans (lastPlace?_eq_some_iff.mp hother).1

lemma lastPlace?_eq_idxOf? (hnames : names.Nodup) : lastPlace? name names = names.idxOf? name := by
  apply Option.ext
  intro i
  rw [lastPlace?_eq_some_iff, idxOf?_eq_some_iff]
  constructor
  · rintro ⟨hi, -⟩
    obtain ⟨hlt, hname⟩ := List.getElem?_eq_some_iff.mp hi
    refine ⟨hlt, hname, ?_⟩
    intro j hj hsame
    rw [← hname, hnames.getElem_inj_iff] at hsame
    omega
  · rintro ⟨hlt, hname, -⟩
    refine ⟨List.getElem?_eq_some_iff.mpr ⟨hlt, hname⟩, ?_⟩
    intro k hk hsame
    obtain ⟨hlt', hname'⟩ := List.getElem?_eq_some_iff.mp hsame
    rw [← hname, hnames.getElem_inj_iff] at hname'
    omega

/-- The node of a component is the last one that renders it. -/
lemma indexOf?_eq_some_iff : t.indexOf? name = some i ↔
    i < t.size ∧ t.nameOf i = name ∧ ∀ k < t.size, i < k → t.nameOf k ≠ name := by
  have hname {k : Nat} (hk : k < t.nodes.size) : t.nameOf k = t.nodes[k].name := by
    simp [nameOf, node?, Array.getElem?_eq_getElem hk]
  simp only [indexOf?, Option.map_eq_some_iff, Array.findIdx?_eq_some_iff_getElem,
    Array.getElem_reverse, Array.size_reverse, decide_eq_true_eq, size]
  constructor
  · rintro ⟨j, ⟨hj, hfound, hlast⟩, rfl⟩
    refine ⟨by omega, ?_, ?_⟩
    · rw [hname]
      exact hfound
    · intro k hk hlt
      have hother := hlast (t.nodes.size - 1 - k) (by omega)
      simp only [Nat.sub_sub_self (Nat.le_sub_one_of_lt hk)] at hother
      rwa [hname hk]
  · rintro ⟨hi, hfound, hlast⟩
    have hplace : t.nodes.size - 1 - (t.nodes.size - 1 - i) = i := by omega
    refine ⟨t.nodes.size - 1 - i, ⟨by omega, ?_, ?_⟩, hplace⟩
    · simp only [hplace]
      rw [← hname hi]
      exact hfound
    · intro k hk
      have hother := hlast (t.nodes.size - 1 - k) (by omega) (by omega)
      rwa [hname] at hother

/-- A node keeps the place of its component in the plan, whichever nodes have been moved. -/
lemma indexOf?_eq_lastPlace? (hm : Moves (serial steps) t) (name : String) :
    t.indexOf? name = lastPlace? name (steps.map Step.name) := by
  have hsize : t.size = (steps.map Step.name).length := by
    rw [hm.size_eq, size_serial, length_map]
  have hname {k : Nat} (hk : k < t.size) : (steps.map Step.name)[k]? = some (t.nameOf k) := by
    have hlt : k < steps.length := by simpa [hsize] using hk
    have hstep : t.step? k = some steps[k] := by
      rw [hm.step?_eq, step?_serial, getElem?_eq_getElem hlt]
    rw [nameOf_eq hstep, getElem?_map, getElem?_eq_getElem hlt]
    rfl
  apply Option.ext
  intro i
  rw [indexOf?_eq_some_iff, lastPlace?_eq_some_iff]
  constructor
  · rintro ⟨hi, rfl, hlast⟩
    refine ⟨hname hi, ?_⟩
    intro k hk hsame
    have hlt : k < t.size := hsize ▸ (List.getElem?_eq_some_iff.mp hsame).1
    exact hlast k hlt hk (Option.some.inj ((hname hlt).symm.trans hsame))
  · rintro ⟨hi, hlast⟩
    have hlt : i < t.size := hsize ▸ (List.getElem?_eq_some_iff.mp hi).1
    refine ⟨hlt, Option.some.inj ((hname hlt).symm.trans hi), ?_⟩
    intro k hk hik hsame
    exact hlast k hik (by rw [hname hk, hsame])

/-! ### Planned groups -/

/-- What is left of a group in a plan: the place of its component, and the places of its children,
each once, in the order in which they are first named. -/
def plannedGroup? (names : List String) (group : String × List String) : Option (Nat × List Nat) :=
  (lastPlace? group.1 names).map fun p => (p, (group.2.filterMap (lastPlace? · names)).eraseDups)

/-- What is left of the groups of a page in a plan. -/
def plannedGroups (names : List String) (groups : List (String × List String)) :
    List (Nat × List Nat) :=
  groups.filterMap (plannedGroup? names)

lemma plannedGroup?_eq {group : String × List String} (hp : lastPlace? group.1 names = some p) :
    plannedGroup? names group = some (p, (group.2.filterMap (lastPlace? · names)).eraseDups) := by
  rw [plannedGroup?, hp]
  rfl

lemma mem_plannedGroup? {group : String × List String} {planned : Nat × List Nat}
    (h : plannedGroup? names group = some planned) {c : Nat} :
    c ∈ planned.2 ↔ ∃ child ∈ group.2, lastPlace? child names = some c := by
  obtain ⟨p, -, rfl⟩ := Option.map_eq_some_iff.mp h
  rw [mem_eraseDups, mem_filterMap]

lemma nodup_of_mem_plannedGroups {planned : Nat × List Nat}
    (h : planned ∈ plannedGroups names groups) : planned.2.Nodup := by
  obtain ⟨group, -, hgroup⟩ := mem_filterMap.mp h
  obtain ⟨p, -, rfl⟩ := Option.map_eq_some_iff.mp hgroup
  exact nodup_eraseDups _

/-- No two planned groups have the same component. -/
lemma nodup_plannedGroups (h : (Entries.keys groups).Nodup) :
    ((plannedGroups names groups).map Prod.fst).Nodup := by
  rw [nodup_iff_pairwise_ne, pairwise_map]
  rw [Entries.keys, nodup_iff_pairwise_ne, pairwise_map] at h
  refine h.filterMap _ ?_
  intro group other hne planned hplanned planned' hplanned' hsame
  obtain ⟨p, hp, rfl⟩ := Option.map_eq_some_iff.mp hplanned
  obtain ⟨q, hq, rfl⟩ := Option.map_eq_some_iff.mp hplanned'
  rw [← show p = q from hsame] at hq
  exact hne (eq_of_lastPlace? hp hq)

lemma attachGroup_eq {group : String × List String} (hm : Moves (serial steps) t) :
    t.attachGroup group = match plannedGroup? (steps.map Step.name) group with
      | some planned => t.attachAll planned.1 planned.2
      | none => .ok t := by
  have hplace : t.indexOf? = fun name => lastPlace? name (steps.map Step.name) :=
    funext (indexOf?_eq_lastPlace? hm)
  rw [attachGroup, plannedGroup?, hplace]
  dsimp only
  cases lastPlace? group.1 (steps.map Step.name) <;> rfl

/-- Building a tree is moving what is left of the groups. -/
theorem build_eq_foldlM (steps : List Step) (parallel : Dict (List String)) :
    build steps parallel = (plannedGroups (steps.map Step.name) parallel.entries).foldlM
      (fun t planned => t.attachAll planned.1 planned.2) (serial steps) := by
  have hgroups (groups : List (String × List String)) (t : RenderTree)
      (hm : Moves (serial steps) t) : groups.foldlM attachGroup t =
        (plannedGroups (steps.map Step.name) groups).foldlM
          (fun t planned => t.attachAll planned.1 planned.2) t := by
    induction groups generalizing t with
    | nil => rfl
    | cons group groups ih =>
      rw [foldlM_cons, attachGroup_eq hm, plannedGroups, filterMap_cons]
      cases plannedGroup? (steps.map Step.name) group with
      | none => exact ih t hm
      | some planned =>
        rw [foldlM_cons]
        dsimp only
        cases hfirst : t.attachAll planned.1 planned.2 with
        | error f => rfl
        | ok t' => exact ih t' (hm.trans (moves_of_attachAll hfirst))
  exact hgroups _ _ .refl

end RenderTree

end PageRender
