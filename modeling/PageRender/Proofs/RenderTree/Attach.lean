import Mathlib.Logic.Relation
import PageRender.Proofs.Except
import PageRender.RenderTree.Basic

/-!
# Moving nodes of a render tree

What building a tree and moving its nodes do to the parent, the children and the step of every
node. A tree that is built from steps is the serial one, changed by moves that were all possible.
-/

namespace PageRender

/-- The step of a component that opens with its page and has no bindings. -/
def Step.plain (name : String) : Step :=
  ⟨{ name }, [], .opening name⟩

namespace RenderTree

variable {t t' : RenderTree} {steps : List Step} {p c i : Nat}

/-! ### Nodes by number -/

lemma node?_eq_none : t.node? i = none ↔ t.size ≤ i := by
  simp [node?, size]

lemma exists_node (h : i < t.size) : ∃ n, t.node? i = some n := by
  cases hn : t.node? i with
  | none => exact absurd (node?_eq_none.mp hn) (by omega)
  | some n => exact ⟨n, rfl⟩

lemma lt_size_of_node {n : Node} (h : t.node? i = some n) : i < t.size := by
  by_contra hi
  rw [node?_eq_none.mpr (by omega)] at h
  cases h

lemma lt_size_of_parent (h : t.parent? i = some p) : i < t.size := by
  rw [parent?, Option.bind_eq_some_iff] at h
  obtain ⟨n, hn, -⟩ := h
  exact lt_size_of_node hn

lemma lt_size_of_mem_children (h : c ∈ t.children p) : p < t.size := by
  cases hn : t.node? p with
  | none => simp [children, hn] at h
  | some n => exact lt_size_of_node hn

/-- The step that a node renders. -/
def step? (t : RenderTree) (i : Nat) : Option Step :=
  (t.node? i).map Node.step

lemma step?_of_node {n : Node} (h : t.node? i = some n) : t.step? i = some n.step := by
  rw [step?, h]
  rfl

lemma lt_size_of_step {s : Step} (h : t.step? i = some s) : i < t.size := by
  obtain ⟨n, hn, -⟩ := Option.map_eq_some_iff.mp h
  exact lt_size_of_node hn

lemma nameOf_eq {s : Step} (h : t.step? i = some s) : t.nameOf i = s.name := by
  obtain ⟨n, hn, rfl⟩ := Option.map_eq_some_iff.mp h
  simp [nameOf, hn, Node.name]

lemma node?_modify (f : Node → Node) (j : Nat) :
    (t.modify i f).node? j = if i = j then (t.node? j).map f else t.node? j := by
  simp [node?, modify, Array.getElem?_modify]

@[simp] lemma size_modify (f : Node → Node) : (t.modify i f).size = t.size := by
  simp [size, modify]

/-! ### One move -/

/-- The tree after a node has been moved under another. -/
def regraft (t : RenderTree) (p c : Nat) : RenderTree :=
  let t := (t.detach c (t.parent? c)).modify c fun n =>
    { n with parent := some p, parallel := true }
  t.modify p fun n => { n with children := n.children ++ [c] }

/-- A move is possible if both nodes are there and the one moved is neither the other nor above
it. -/
lemma attach_eq_ok_iff : t.attach p c = (.ok (), t') ↔
    p < t.size ∧ c < t.size ∧ p ≠ c ∧ t.isAncestor c p = false ∧ t.regraft p c = t' := by
  unfold attach
  split
  · next hout =>
    refine iff_of_false (by simp) ?_
    rintro ⟨hp, hc, -⟩
    omega
  · next hin =>
    have hsize : p < t.size ∧ c < t.size := by omega
    split
    · next hup =>
      refine iff_of_false (by simp) ?_
      rintro ⟨-, -, hne, hanc, -⟩
      rcases hup with heq | habove
      · exact hne heq
      · rw [hanc] at habove
        cases habove
    · next hfree =>
      rw [not_or, Bool.not_eq_true] at hfree
      simp [hsize, hfree, regraft]

/-- A move that is not possible leaves the tree as it is, and tells the first of two reasons: that
there is no such node, or that the one to be moved is the other or above it. -/
lemma attach_eq_error_iff {f : TreeFault} : t.attach p c = (.error f, t') ↔
    ((¬(p < t.size ∧ c < t.size) ∧ .outOfRange p c t.size = f) ∨
      (p < t.size ∧ c < t.size) ∧ (p = c ∨ t.isAncestor c p = true) ∧
        .upstream (t.nameOf p) (t.nameOf c) = f) ∧ t = t' := by
  unfold attach
  split
  · next hout =>
    have hsize : ¬(p < t.size ∧ c < t.size) := by omega
    simp [hsize]
  · next hin =>
    have hsize : p < t.size ∧ c < t.size := by omega
    split
    · next hup => simp [hsize, hup]
    · next hfree => simp [hsize, hfree]

lemma node?_detach (q : Option Nat) : (t.detach c q).node? i =
    if q = some i then (t.node? i).map fun n => { n with children := n.children.filter (· ≠ c) }
    else t.node? i := by
  cases q with
  | none => simp [detach]
  | some q => simp [detach, node?_modify]

@[simp] lemma size_detach (q : Option Nat) : (t.detach c q).size = t.size := by
  cases q <;> simp [detach]

@[simp] lemma size_regraft : (t.regraft p c).size = t.size := by
  simp [regraft]

lemma step?_regraft : (t.regraft p c).step? i = t.step? i := by
  simp only [step?, regraft, node?_modify, node?_detach]
  split_ifs <;> simp [Function.comp_def]

lemma parent?_regraft (hc : c < t.size) :
    (t.regraft p c).parent? i = if i = c then some p else t.parent? i := by
  obtain ⟨n, hn⟩ := exists_node hc
  simp only [parent?, regraft, node?_modify, node?_detach]
  by_cases hi : i = c
  · subst hi
    rw [hn]
    split_ifs <;> simp_all
  · rw [if_neg (Ne.symm hi), if_neg hi]
    cases t.node? i <;> split_ifs <;> simp

/-- The node moved leaves the children of its old parent and becomes the last child of the new
one. -/
lemma children_regraft (hp : p < t.size) : (t.regraft p c).children i =
    (if t.parent? c = some i then (t.children i).filter (· ≠ c) else t.children i) ++
      if i = p then [c] else [] := by
  obtain ⟨n, hn⟩ := exists_node hp
  simp only [children, regraft, node?_modify, node?_detach]
  by_cases hi : i = p
  · subst hi
    rw [hn]
    split_ifs <;> simp_all
  · rw [if_neg (Ne.symm hi), if_neg hi]
    cases t.node? i <;> split_ifs <;> simp

/-! ### Many moves -/

/-- The one tree comes of the other by moves, all of which were possible. -/
def Moves : RenderTree → RenderTree → Prop :=
  Relation.ReflTransGen fun t t' => ∃ p c, t.attach p c = (.ok (), t')

/-- The tree after moves have been tried one after the other, whichever of them were possible. -/
def attachEach (t : RenderTree) (calls : List (Nat × Nat)) : RenderTree :=
  calls.foldl (fun t call => (t.attach call.1 call.2).2) t

/-- The moves that were not possible have changed nothing. -/
lemma moves_attachEach (t : RenderTree) (calls : List (Nat × Nat)) :
    Moves t (t.attachEach calls) := by
  induction calls generalizing t with
  | nil => exact .refl
  | cons call calls ih =>
    rw [attachEach, List.foldl_cons]
    rcases h : t.attach call.1 call.2 with ⟨f | ⟨⟩, t'⟩
    · obtain ⟨-, rfl⟩ := attach_eq_error_iff.mp h
      exact ih t
    · exact .head ⟨_, _, h⟩ (ih t')

lemma moves_of_attachAll {children : List Nat} (h : t.attachAll p children = .ok t') : Moves t t' :=
  foldlM_keeps (P := Moves t) (fun _ c _ ha hm => hm.tail ⟨p, c, kept_eq_ok_iff.mp ha⟩) h .refl

lemma moves_of_attachGroup {group : String × List String} (h : t.attachGroup group = .ok t') :
    Moves t t' := by
  unfold attachGroup at h
  split at h
  · cases h
    exact .refl
  · exact moves_of_attachAll h

/-- Building a tree is a series of moves. -/
lemma moves_of_build {parallel : Dict (List String)} (h : build steps parallel = .ok t) :
    Moves (serial steps) t :=
  foldlM_keeps (P := Moves (serial steps)) (fun _ _ _ hg hm => hm.trans (moves_of_attachGroup hg)) h
    .refl

/-- What every possible move keeps, moves keep. -/
lemma Moves.keeps {P : RenderTree → Prop} (hm : Moves t t')
    (hstep : ∀ u u' p c, u.attach p c = (.ok (), u') → P u → P u') (h : P t) : P t' := by
  induction hm with
  | refl => exact h
  | tail _ hlast ih =>
    obtain ⟨p, c, ha⟩ := hlast
    exact hstep _ _ p c ha ih

lemma Moves.size_eq (h : Moves t t') : t'.size = t.size := by
  refine h.keeps (P := fun u => u.size = t.size) (fun u u' p c ha hu => ?_) rfl
  obtain ⟨-, -, -, -, rfl⟩ := attach_eq_ok_iff.mp ha
  rw [size_regraft, hu]

lemma Moves.step?_eq (h : Moves t t') (i : Nat) : t'.step? i = t.step? i := by
  refine h.keeps (P := fun u => u.step? i = t.step? i) (fun u u' p c ha hu => ?_) rfl
  obtain ⟨-, -, -, -, rfl⟩ := attach_eq_ok_iff.mp ha
  rw [step?_regraft, hu]

/-! ### The serial tree -/

@[simp] lemma size_serial : (serial steps).size = steps.length := by
  simp [serial, size]

lemma step?_serial : (serial steps).step? i = steps[i]? := by
  simp [step?, node?, serial, Function.comp_def]

lemma parent?_serial : (serial steps).parent? i =
    if i < steps.length ∧ i ≠ 0 then some (i - 1) else none := by
  simp only [parent?, node?, serial, List.getElem?_toArray, List.getElem?_mapIdx]
  by_cases hi : i < steps.length
  · rw [List.getElem?_eq_getElem hi]
    by_cases h0 : i = 0 <;> simp_all
  · rw [List.getElem?_eq_none (by omega)]
    simp [hi]

lemma children_serial :
    (serial steps).children i = if i + 1 < steps.length then [i + 1] else [] := by
  simp only [children, node?, serial, List.getElem?_toArray, List.getElem?_mapIdx]
  by_cases hi : i < steps.length
  · rw [List.getElem?_eq_getElem hi]
    rfl
  · rw [List.getElem?_eq_none (by omega)]
    simp
    omega

/-- The steps of a tree that is built are those that were planned, in their order. -/
lemma step?_build {parallel : Dict (List String)} (h : build steps parallel = .ok t) (i : Nat) :
    t.step? i = steps[i]? := by
  rw [(moves_of_build h).step?_eq, step?_serial]

lemma size_build {parallel : Dict (List String)} (h : build steps parallel = .ok t) :
    t.size = steps.length := by
  rw [(moves_of_build h).size_eq, size_serial]

/-- Without steps there is nothing to move, so that no group is refused. -/
lemma build_nil (parallel : Dict (List String)) : build [] parallel = .ok (serial []) := by
  have hgroup (group : String × List String) : (serial []).attachGroup group = .ok (serial []) := by
    have hnone : (serial []).indexOf? group.1 = none := by simp [indexOf?, serial]
    simp [attachGroup, hnone]
  unfold build
  induction parallel.entries with
  | nil => rfl
  | cons group groups ih => rw [List.foldlM_cons, hgroup, ok_bind, ih]

end RenderTree

end PageRender
