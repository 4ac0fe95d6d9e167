import Mathlib.Data.Finset.Card
import PageRender.Proofs.RenderTree.Attach

/-!
# Render trees have a root

However a tree has been built and whichever moves have been tried on it, it stays a tree: node 0 is
the root, the children of a node are those that wait for it, and the way up from every node leads to
the root. Hence the search for an ancestor ends, and finds what is linked by children.
-/

namespace PageRender

namespace RenderTree

variable {t t' : RenderTree} {steps : List Step} {p c i : Nat}

/-! ### The way up -/

/-- The node that is so many steps above a node. -/
def up (t : RenderTree) : Nat → Nat → Option Nat
  | 0, i => some i
  | k + 1, i => (t.parent? i).bind (t.up k)

/-- A node is above another if one or more links to children lead down to it. -/
def Above (t : RenderTree) : Nat → Nat → Prop :=
  Relation.TransGen fun p c => c ∈ t.children p

@[simp] lemma up_zero : t.up 0 i = some i := rfl

lemma up_succ (k : Nat) : t.up (k + 1) i = (t.parent? i).bind (t.up k) := rfl

lemma up_add (j k : Nat) : t.up (j + k) i = (t.up j i).bind (t.up k) := by
  induction j generalizing i with
  | zero => simp
  | succ j ih =>
    rw [Nat.succ_add, up_succ, up_succ]
    cases t.parent? i with
    | none => rfl
    | some q => simpa using ih

/-- The search for an ancestor goes up step by step. -/
lemma climbs_iff (a steps : Nat) (start : Option Nat) :
    t.climbs a steps start = true ↔ ∃ k < steps, start.bind (t.up k) = some a := by
  induction steps generalizing start with
  | zero => cases start <;> simp [climbs]
  | succ steps ih =>
    cases start with
    | none => simp [climbs]
    | some i =>
      simp only [climbs, Bool.or_eq_true, decide_eq_true_eq, ih, Option.bind_some]
      constructor
      · rintro (rfl | ⟨k, hk, h⟩)
        · exact ⟨0, by omega, rfl⟩
        · exact ⟨k + 1, by omega, h⟩
      · rintro ⟨k, hk, h⟩
        cases k with
        | zero => exact Or.inl (by simpa using h)
        | succ k => exact Or.inr ⟨k, by omega, h⟩

/-! ### Rooted trees -/

/-- Node 0 is the one above all others, and parents and children agree. -/
structure Rooted (t : RenderTree) : Prop where
  parent_eq_none : ∀ i < t.size, t.parent? i = none ↔ i = 0
  mem_children : ∀ p c, c ∈ t.children p ↔ t.parent? c = some p
  nodup_children : ∀ p, (t.children p).Nodup
  reaches_root : ∀ i < t.size, ∃ k, t.up k i = some 0

namespace Rooted

lemma parent_lt (h : t.Rooted) (hp : t.parent? c = some p) : p < t.size :=
  lt_size_of_mem_children ((h.mem_children p c).mpr hp)

lemma parent_zero (h : t.Rooted) : t.parent? 0 = none := by
  by_cases h0 : 0 < t.size
  · exact (h.parent_eq_none 0 h0).mpr rfl
  · simp [parent?, node?_eq_none.mpr (Nat.le_of_not_lt h0)]

lemma up_root_succ (h : t.Rooted) (k : Nat) : t.up (k + 1) 0 = none := by
  rw [up_succ, h.parent_zero]
  rfl

/-- The way up to the root has one length. -/
lemma le_of_up_root (h : t.Rooted) {j k x : Nat} (hk : t.up k i = some 0) (hj : t.up j i = some x) :
    j ≤ k ∧ t.up (k - j) x = some 0 := by
  rcases Nat.lt_or_ge k j with hlt | hle
  · obtain ⟨m, rfl⟩ := Nat.exists_eq_add_of_lt hlt
    rw [Nat.add_assoc, up_add, hk, Option.bind_some, h.up_root_succ] at hj
    cases hj
  · refine ⟨hle, ?_⟩
    rw [← Nat.add_sub_cancel' hle, up_add, hj] at hk
    exact hk

lemma up_root_unique (h : t.Rooted) {j k : Nat} (hj : t.up j i = some 0) (hk : t.up k i = some 0) :
    j = k :=
  Nat.le_antisymm (h.le_of_up_root hk hj).1 (h.le_of_up_root hj hk).1

lemma up_lt_size (h : t.Rooted) (hi : i < t.size) {k x : Nat} (hx : t.up k i = some x) :
    x < t.size := by
  induction k generalizing i with
  | zero =>
    cases hx
    exact hi
  | succ k ih =>
    rw [up_succ, Option.bind_eq_some_iff] at hx
    obtain ⟨q, hq, hx⟩ := hx
    exact ih (h.parent_lt hq) hx

/-- The nodes on the way up are different, so that the way is shorter than the tree is large. -/
lemma reaches_root_lt (h : t.Rooted) (hi : i < t.size) : ∃ k < t.size, t.up k i = some 0 := by
  obtain ⟨k, hk⟩ := h.reaches_root i hi
  refine ⟨k, ?_, hk⟩
  by_contra hlarge
  have hway : ∀ j ≤ k, ∃ x, t.up j i = some x := by
    intro j hj
    rw [← Nat.add_sub_cancel' hj, up_add, Option.bind_eq_some_iff] at hk
    obtain ⟨x, hx, -⟩ := hk
    exact ⟨x, hx⟩
  -- more nodes on the way than in the tree: two of them agree
  obtain ⟨a, ha, b, hb, hne, hab⟩ := Finset.exists_ne_map_eq_of_card_lt_of_maps_to
    (s := Finset.range (k + 1)) (t := Finset.range t.size) (f := fun j => (t.up j i).getD 0)
    (by simp; omega) (by
      intro j hj
      obtain ⟨x, hx⟩ := hway j (by simp at hj; omega)
      simpa [hx] using h.up_lt_size hi hx)
  simp only [Finset.mem_range] at ha hb
  obtain ⟨x, hx⟩ := hway a (by omega)
  obtain ⟨y, hy⟩ := hway b (by omega)
  obtain rfl : x = y := by simpa [hx, hy] using hab
  have hroot := h.up_root_unique (h.le_of_up_root hk hx).2 (h.le_of_up_root hk hy).2
  omega

lemma above_iff_up (h : t.Rooted) {a n : Nat} : t.Above a n ↔ ∃ k, t.up (k + 1) n = some a := by
  constructor
  · intro ha
    induction ha with
    | single hc => exact ⟨0, by simp [up_succ, (h.mem_children _ _).mp hc]⟩
    | tail _ hc ih =>
      obtain ⟨k, hk⟩ := ih
      exact ⟨k + 1, by rw [up_succ, (h.mem_children _ _).mp hc]; exact hk⟩
  · rintro ⟨k, hk⟩
    induction k generalizing n with
    | zero =>
      rw [up_succ, Option.bind_eq_some_iff] at hk
      obtain ⟨q, hq, hqa⟩ := hk
      cases hqa
      exact .single ((h.mem_children _ _).mpr hq)
    | succ k ih =>
      rw [up_succ, Option.bind_eq_some_iff] at hk
      obtain ⟨q, hq, hk⟩ := hk
      exact .tail (ih hk) ((h.mem_children _ _).mpr hq)

lemma above_iff_of_parent (h : t.Rooted) {a : Nat} (hp : t.parent? c = some p) :
    t.Above a c ↔ a = p ∨ t.Above a p := by
  rw [Above, Relation.TransGen.tail'_iff]
  constructor
  · rintro ⟨b, hab, hbc⟩
    rw [h.mem_children, hp] at hbc
    cases hbc
    exact (Relation.reflTransGen_iff_eq_or_transGen.mp hab).imp Eq.symm id
  · have hlink : c ∈ t.children p := (h.mem_children p c).mpr hp
    rintro (rfl | hap)
    · exact ⟨a, .refl, hlink⟩
    · exact ⟨p, hap.to_reflTransGen, hlink⟩

/-- A search that may go up as many steps as there are nodes misses no ancestor. -/
lemma climbs_eq_true_iff (h : t.Rooted) {a n steps : Nat} (hsteps : t.size ≤ steps) :
    t.climbs a steps (t.parent? n) = true ↔ t.Above a n := by
  rw [climbs_iff, h.above_iff_up]
  constructor
  · rintro ⟨k, -, hk⟩
    exact ⟨k, hk⟩
  · rintro ⟨k, hk⟩
    have hbind : (t.parent? n).bind (t.up k) = some a := hk
    obtain ⟨q, hq, -⟩ := Option.bind_eq_some_iff.mp hbind
    obtain ⟨j, hj, hroot⟩ := h.reaches_root_lt (lt_size_of_parent hq)
    have hle := (h.le_of_up_root hroot hk).1
    exact ⟨k, by omega, hbind⟩

lemma isAncestor_iff (h : t.Rooted) {a n : Nat} : t.isAncestor a n = true ↔ t.Above a n :=
  h.climbs_eq_true_iff (Nat.le_refl _)

lemma not_above_zero (h : t.Rooted) {a : Nat} : ¬t.Above a 0 := by
  rw [h.above_iff_up]
  rintro ⟨k, hk⟩
  rw [h.up_root_succ] at hk
  cases hk

lemma not_above_self (h : t.Rooted) (hi : i < t.size) : ¬t.Above i i := by
  rw [h.above_iff_up]
  rintro ⟨k, hk⟩
  obtain ⟨m, hm⟩ := h.reaches_root i hi
  obtain ⟨hle, hroot⟩ := h.le_of_up_root hm hk
  have hsame := h.up_root_unique hm hroot
  omega

lemma above_root (h : t.Rooted) (hi : i < t.size) (h0 : i ≠ 0) : t.Above 0 i := by
  obtain ⟨k, hk⟩ := h.reaches_root i hi
  cases k with
  | zero => exact absurd (Option.some.inj hk) h0
  | succ k => exact h.above_iff_up.mpr ⟨k, hk⟩

/-! ### Edges -/

lemma root?_eq (h : t.Rooted) : t.root? = if t.size = 0 then none else some 0 := by
  by_cases h0 : t.size = 0
  · rw [if_pos h0, root?, Array.findIdx?_eq_none_iff]
    intro n hn
    simp [Array.size_eq_zero_iff.mp h0] at hn
  · rw [if_neg h0, root?, Array.findIdx?_eq_some_iff_getElem]
    have hlt : 0 < t.nodes.size := Nat.pos_of_ne_zero h0
    refine ⟨hlt, ?_, by omega⟩
    have hroot := h.parent_zero
    rw [parent?, node?, Array.getElem?_eq_getElem hlt] at hroot
    simpa using hroot

lemma root?_eq_some (h : t.Rooted) {root : Nat} (hroot : t.root? = some root) :
    root = 0 ∧ 0 < t.size := by
  rw [h.root?_eq] at hroot
  split at hroot
  · cases hroot
  · next h0 => exact ⟨(Option.some.inj hroot).symm, Nat.pos_of_ne_zero h0⟩

/-- Every node but the root has an edge. -/
lemma length_edges (h : t.Rooted) : t.edges.length = t.size - 1 := by
  have hedges : t.edges.length = t.nodes.toList.countP fun n => n.parent.isSome := by
    rw [edges, List.countP_eq_length_filter]
    induction t.nodes.toList with
    | nil => rfl
    | cons n rest ih => cases hn : n.parent <;> simp [hn, ih]
  cases hnodes : t.nodes.toList with
  | nil => simp [hedges, hnodes, size, ← Array.length_toList]
  | cons n rest =>
    have hget (j : Nat) : t.parent? j = ((n :: rest)[j]?).bind Node.parent := by
      rw [← hnodes, parent?, node?, Array.getElem?_toList]
    have hsize : t.size = rest.length + 1 := by
      rw [size, ← Array.length_toList, hnodes, List.length_cons]
    have hn : n.parent = none := by simpa [hget] using h.parent_zero
    have hrest : rest.countP (fun n => n.parent.isSome) = rest.length := by
      rw [List.countP_eq_length]
      intro m hm
      obtain ⟨j, hj, rfl⟩ := List.mem_iff_getElem.mp hm
      have hj' := (h.parent_eq_none (j + 1) (by omega)).not.mpr (by omega)
      rw [hget, List.getElem?_cons_succ, List.getElem?_eq_getElem hj] at hj'
      exact Option.isSome_iff_ne_none.mpr hj'
    simp [hedges, hnodes, hn, hrest, hsize]

end Rooted

/-! ### Moves keep the root -/

lemma rooted_serial (steps : List Step) : (serial steps).Rooted where
  parent_eq_none i hi := by
    rw [size_serial] at hi
    by_cases h0 : i = 0 <;> simp [parent?_serial, hi, h0]
  mem_children p c := by
    rw [children_serial, parent?_serial]
    split_ifs <;> simp <;> omega
  nodup_children p := by
    rw [children_serial]
    split <;> simp
  reaches_root i hi := by
    rw [size_serial] at hi
    refine ⟨i, ?_⟩
    induction i with
    | zero => rfl
    | succ i ih =>
      rw [up_succ, parent?_serial, if_pos ⟨hi, by omega⟩]
      exact ih (by omega)

namespace Rooted

variable (h : t.Rooted) (hp : p < t.size) (hc : c < t.size) (hne : p ≠ c) (habove : ¬t.Above c p)

include h hc in
/-- A way up on which the moved node does not lie is the same after the move. -/
lemma up_regraft {k : Nat} (hk : t.up k i = some 0) (hi : i ≠ c) (hci : ¬t.Above c i) :
    (t.regraft p c).up k i = some 0 := by
  induction k generalizing i with
  | zero => exact hk
  | succ k ih =>
    rw [up_succ, Option.bind_eq_some_iff] at hk
    obtain ⟨q, hq, hkq⟩ := hk
    have hlink : i ∈ t.children q := (h.mem_children q i).mpr hq
    rw [up_succ, parent?_regraft hc, if_neg hi, hq]
    refine ih hkq ?_ fun ha => hci (.tail ha hlink)
    rintro rfl
    exact hci (.single hlink)

include h hp hc hne habove in
/-- The root is above every other node, so that it is never the one that moves. -/
lemma parent_eq_none_regraft (hi : i < t.size) : (t.regraft p c).parent? i = none ↔ i = 0 := by
  rw [parent?_regraft hc]
  by_cases hic : i = c
  · rw [if_pos hic, hic]
    refine iff_of_false (by simp) ?_
    rintro rfl
    exact habove (h.above_root hp hne)
  · rw [if_neg hic]
    exact h.parent_eq_none i hi

include h hp hc in
lemma mem_children_regraft (q x : Nat) :
    x ∈ (t.regraft p c).children q ↔ (t.regraft p c).parent? x = some q := by
  rw [children_regraft hp, parent?_regraft hc]
  by_cases hx : x = c
  · subst hx
    by_cases hq : q = p
    · subst hq
      simp
    · by_cases hold : t.parent? x = some q
      · simp [hold, hq, Ne.symm hq]
      · simp [hold, hq, Ne.symm hq, h.mem_children]
  · split_ifs <;> simp [hx, h.mem_children]

include h hp in
lemma nodup_children_regraft (q : Nat) : ((t.regraft p c).children q).Nodup := by
  rw [children_regraft hp]
  have hnodup := h.nodup_children q
  have hmem := h.mem_children q c
  -- the moved node is taken out of the old list before it is put into the new one
  split_ifs with hold hq hq
  · simp [List.nodup_append, hnodup.filter]
  · simpa using hnodup.filter _
  · rw [List.nodup_append]
    refine ⟨hnodup, by simp, fun a ha b hb hab => hold (hmem.mp ?_)⟩
    rw [List.mem_singleton] at hb
    rwa [← hb, ← hab]
  · simpa using hnodup

include h hp hc hne habove in
/-- The way up from the new parent is as it was, and that from every other node is so up to the
moved node. -/
lemma reaches_root_regraft (hi : i < t.size) : ∃ k, (t.regraft p c).up k i = some 0 := by
  obtain ⟨kp, hkp⟩ := h.reaches_root p hp
  have hkp' : (t.regraft p c).up kp p = some 0 := h.up_regraft hc hkp hne habove
  obtain ⟨k, hk⟩ := h.reaches_root i hi
  induction k generalizing i with
  | zero =>
    cases hk
    exact ⟨0, rfl⟩
  | succ k ih =>
    by_cases hic : i = c
    · refine ⟨kp + 1, ?_⟩
      rw [up_succ, parent?_regraft hc, if_pos hic]
      exact hkp'
    · rw [up_succ, Option.bind_eq_some_iff] at hk
      obtain ⟨q, hq, hkq⟩ := hk
      obtain ⟨k', hk'⟩ := ih (h.parent_lt hq) hkq
      refine ⟨k' + 1, ?_⟩
      rw [up_succ, parent?_regraft hc, if_neg hic, hq]
      exact hk'

end Rooted

lemma Rooted.attach (h : t.Rooted) (ha : t.attach p c = (.ok (), t')) : t'.Rooted := by
  obtain ⟨hp, hc, hne, hanc, rfl⟩ := attach_eq_ok_iff.mp ha
  have habove : ¬t.Above c p := by
    rw [← h.isAncestor_iff, hanc]
    decide
  refine ⟨fun i hi => ?_, h.mem_children_regraft hp hc, h.nodup_children_regraft hp, fun i hi => ?_⟩
  · rw [size_regraft] at hi
    exact h.parent_eq_none_regraft hp hc hne habove hi
  · rw [size_regraft] at hi
    exact h.reaches_root_regraft hp hc hne habove hi

lemma Rooted.moves (h : t.Rooted) (hm : Moves t t') : t'.Rooted :=
  hm.keeps (fun _ _ _ _ ha hu => hu.attach ha) h

/-- A tree that has been built is rooted, and stays so whatever moves are tried. -/
lemma rooted_of_build {parallel : Dict (List String)} (h : build steps parallel = .ok t)
    (calls : List (Nat × Nat)) : (t.attachEach calls).Rooted :=
  (rooted_serial steps).moves ((moves_of_build h).trans (moves_attachEach t calls))

/-- However a tree has been built, and whichever moves have been tried on it since, node 0 is its
only node without a parent, parents and children agree, the way up from every node is shorter than
the tree is large, and the search for an ancestor, which need go no further, finds exactly the nodes
from which links to children lead down. -/
theorem isTree_of_build {parallel : Dict (List String)} (h : build steps parallel = .ok t)
    (calls : List (Nat × Nat)) :
    let u := t.attachEach calls
    u.size = steps.length ∧
      u.root? = (if u.size = 0 then none else some 0) ∧
      (∀ i < u.size, u.parent? i = none ↔ i = 0) ∧
      (∀ p c, c ∈ u.children p ↔ u.parent? c = some p) ∧
      (∀ p, (u.children p).Nodup) ∧
      u.edges.length = u.size - 1 ∧
      (∀ i < u.size, ∃ k < u.size, u.up k i = some 0) ∧
      (∀ a n fuel, u.size ≤ fuel → u.climbs a fuel (u.parent? n) = u.isAncestor a n) ∧
      ∀ a n, u.isAncestor a n = true ↔ u.Above a n := by
  intro u
  have hu : u.Rooted := rooted_of_build h calls
  refine ⟨?_, hu.root?_eq, hu.parent_eq_none, hu.mem_children, hu.nodup_children, hu.length_edges,
    fun i hi => hu.reaches_root_lt hi, fun a n fuel hfuel => ?_, fun a n => hu.isAncestor_iff⟩
  · rw [(moves_attachEach t calls).size_eq, size_build h]
  · rw [Bool.eq_iff_iff, hu.climbs_eq_true_iff hfuel, hu.isAncestor_iff]

/-- A group moves two nodes under the first; of two later moves the first is refused, as it would
close a circle. -/
theorem isTree_of_build_group :
    ∃ t, build (["filter", "list", "chart", "footer"].map Step.plain)
        (.ofList [("filter", ["list", "chart", "list"])]) = .ok t ∧
      (t.attachEach [(3, 0), (1, 3)]).edges.length = 3 := by
  obtain ⟨t, ht⟩ : ∃ t, build (["filter", "list", "chart", "footer"].map Step.plain)
      (.ofList [("filter", ["list", "chart", "list"])]) = .ok t :=
    exists_ok_of_toBool (by decide +kernel)
  obtain ⟨hsize, -, -, -, -, hedges, -⟩ := isTree_of_build ht [(3, 0), (1, 3)]
  exact ⟨t, ht, by rw [hedges, hsize]; rfl⟩

end RenderTree

end PageRender
