import PageRender.Proofs.RenderTree.Rooted

/-!
# Nodes that no group has moved

Only parallel groups make a node wait for another one than it did at first. In a tree in which no
edge is parallel, the nodes wait for each other in the order in which they were planned.
-/

namespace PageRender

namespace RenderTree

variable {t t' : RenderTree} {steps : List Step} {parallel : Dict (List String)} {e : Edge}
  {a p c i : Nat}

/-- Whether a group has put a node where it is. -/
def parallel? (t : RenderTree) (i : Nat) : Option Bool :=
  (t.node? i).map Node.parallel

lemma parallel?_regraft : (t.regraft p c).parallel? i =
    if i = c then (t.parallel? i).map fun _ => true else t.parallel? i := by
  simp only [parallel?, regraft, node?_modify, node?_detach]
  by_cases hi : i = c
  · subst hi
    split_ifs <;> simp [Function.comp_def]
  · rw [if_neg (Ne.symm hi), if_neg hi]
    split_ifs <;> simp [Function.comp_def]

/-- A node that no group has moved waits for the one planned before it. -/
def KeepsSerial (t : RenderTree) : Prop :=
  ∀ i, t.parallel? i = some false → t.parent? i = if i = 0 then none else some (i - 1)

lemma keepsSerial_serial (steps : List Step) : (serial steps).KeepsSerial := by
  intro i hi
  obtain ⟨n, hn, -⟩ := Option.map_eq_some_iff.mp hi
  have hlt : i < steps.length := by simpa using lt_size_of_node hn
  rw [parent?_serial]
  by_cases h0 : i = 0 <;> simp [h0, hlt]

lemma KeepsSerial.regraft (h : t.KeepsSerial) (hc : c < t.size) : (t.regraft p c).KeepsSerial := by
  intro i hi
  rw [parallel?_regraft] at hi
  by_cases hic : i = c
  · rw [if_pos hic, Option.map_eq_some_iff] at hi
    obtain ⟨b, -, hb⟩ := hi
    cases hb
  · rw [if_neg hic] at hi
    rw [parent?_regraft hc, if_neg hic]
    exact h i hi

lemma keepsSerial_of_build (h : build steps parallel = .ok t) : t.KeepsSerial := by
  refine (moves_of_build h).keeps (P := KeepsSerial) (fun u u' p c ha hu => ?_)
    (keepsSerial_serial steps)
  obtain ⟨-, hc, -, -, rfl⟩ := attach_eq_ok_iff.mp ha
  exact hu.regraft hc

/-! ### Edges -/

lemma mem_edges : e ∈ t.edges ↔ ∃ i n p, t.node? i = some n ∧ n.parent = some p ∧
    e = ⟨t.nameOf p, n.name, n.parallel⟩ := by
  simp only [edges, List.mem_filterMap, Option.map_eq_some_iff, Array.mem_toList_iff,
    Array.mem_iff_getElem?, node?]
  constructor
  · rintro ⟨n, ⟨i, hn⟩, p, hp, rfl⟩
    exact ⟨i, n, p, hn, hp, rfl⟩
  · rintro ⟨i, n, p, hn, hp, rfl⟩
    exact ⟨n, ⟨i, hn⟩, p, hp, rfl⟩

/-- The ends of an edge are a node and the one that it waits for. -/
lemma exists_of_mem_edges (h : e ∈ t.edges) :
    ∃ p c, t.parent? c = some p ∧ e.parent = t.nameOf p ∧ e.child = t.nameOf c := by
  obtain ⟨i, n, p, hn, hp, rfl⟩ := mem_edges.mp h
  exact ⟨p, i, by rw [parent?, hn]; exact hp, rfl, by simp [nameOf, hn]⟩

/-- Without parallel edges, every node is below those that were planned before it. -/
lemma above_of_lt (h : build steps parallel = .ok t) (hedges : ∀ e ∈ t.edges, e.parallel = false)
    (hac : a < c) (hc : c < t.size) : t.Above a c := by
  have ht : t.Rooted := rooted_of_build h []
  have hparent {i : Nat} (hi : i + 1 < t.size) : t.parent? (i + 1) = some i := by
    obtain ⟨n, hn⟩ := exists_node hi
    have hp : t.parent? (i + 1) = n.parent := by
      rw [parent?, hn]
      rfl
    cases hnp : n.parent with
    | none =>
      rw [hnp, ht.parent_eq_none _ hi] at hp
      cases hp
    | some q =>
      have hparallel : t.parallel? (i + 1) = some false := by
        rw [parallel?, hn, ← hedges _ (mem_edges.mpr ⟨i + 1, n, q, hn, hnp, rfl⟩)]
        rfl
      exact keepsSerial_of_build h (i + 1) hparallel
  induction c with
  | zero => omega
  | succ c ih =>
    rw [ht.above_iff_of_parent (hparent hc)]
    rcases Nat.lt_succ_iff_lt_or_eq.mp hac with hlt | rfl
    · exact Or.inr (ih hlt (by omega))
    · exact Or.inl rfl

end RenderTree

end PageRender
