import PageRender.Proofs.RenderTree.Groups
import PageRender.Proofs.RenderTree.Unmoved

/-!
# Moving a subtree

What a move of one node changes for all others. A node and those below it form a subtree. When the
node is moved, its subtree goes with it: below every other node there is what was there before,
unless the node was above the one that has been moved, or is so now.
-/

namespace PageRender

namespace RenderTree

variable {t u : RenderTree} {steps : List Step} {parallel : Dict (List String)} {a c d p q : Nat}

/-- A node is in the subtree of another if it is that node, or below it. -/
def Within (t : RenderTree) (c d : Nat) : Prop :=
  d = c ∨ t.Above c d

namespace Rooted

/-- What holds of the root, and of every node whose parent it holds of, holds of all nodes. -/
lemma induction_down {P : Nat → Prop} (h : t.Rooted) (hroot : P 0)
    (hchild : ∀ {q d}, t.parent? d = some q → P q → P d) (hd : d < t.size) : P d := by
  obtain ⟨k, hk⟩ := h.reaches_root d hd
  induction k generalizing d with
  | zero =>
    cases hk
    exact hroot
  | succ k ih =>
    rw [up_succ, Option.bind_eq_some_iff] at hk
    obtain ⟨q, hq, hkq⟩ := hk
    exact hchild hq (ih (h.parent_lt hq) hkq)

/-- Apart from its top, a subtree has the nodes whose parents it has. -/
lemma within_iff_of_parent (h : t.Rooted) (hq : t.parent? d = some q) :
    t.Within c d ↔ d = c ∨ t.Within c q := by
  rw [Within, Within, h.above_iff_of_parent hq, eq_comm (a := q)]

lemma not_within_zero (h : t.Rooted) (hp : p < t.size) (hnot : ¬t.Within c p) : ¬t.Within c 0 := by
  rintro (rfl | habove)
  · by_cases h0 : p = 0
    · exact hnot (Or.inl h0)
    · exact hnot (Or.inr (h.above_root hp h0))
  · exact h.not_above_zero habove

/-- Nothing in a subtree is above its top. -/
lemma not_above_of_within (h : t.Rooted) (hc : c < t.size) (hq : t.Within c q) : ¬t.Above q c := by
  rcases hq with rfl | hcq
  · exact h.not_above_self hc
  · exact fun hqc => h.not_above_self hc (hcq.trans hqc)

/-! ### Ancestors after a move -/

section

variable (h : t.Rooted) (hp : p < t.size) (hc : c < t.size) (hnot : ¬t.Within c p)

include h hp hc hnot

lemma regraft : (t.regraft p c).Rooted := by
  refine h.attach (p := p) (c := c) (attach_eq_ok_iff.mpr ⟨hp, hc, ?_, ?_, rfl⟩)
  · exact fun hpc => hnot (Or.inl hpc)
  · rw [Bool.eq_false_iff, ne_eq, h.isAncestor_iff]
    exact fun habove => hnot (Or.inr habove)

/-- Above a node outside the subtree that moves, nothing changes. -/
lemma above_regraft_of_not_within (hd : d < t.size) (hout : ¬t.Within c d) :
    (t.regraft p c).Above a d ↔ t.Above a d := by
  have hu : (t.regraft p c).Rooted := h.regraft hp hc hnot
  refine h.induction_down (P := fun d => ¬t.Within c d →
    ((t.regraft p c).Above a d ↔ t.Above a d)) ?_ ?_ hd hout
  · intro _
    exact iff_of_false hu.not_above_zero h.not_above_zero
  · intro q d hq ih hout
    rw [h.within_iff_of_parent hq, not_or] at hout
    have hq' : (t.regraft p c).parent? d = some q := by
      rw [parent?_regraft hc, if_neg hout.1, hq]
    rw [h.above_iff_of_parent hq, hu.above_iff_of_parent hq', ih hout.2]

/-- Above a node of the subtree that moves, there is the new parent with what is above it, and what
was there without being above the top of the subtree. -/
lemma above_regraft_of_within (hd : d < t.size) (hin : t.Within c d) :
    (t.regraft p c).Above a d ↔ t.Within a p ∨ t.Above a d ∧ ¬t.Above a c := by
  have hu : (t.regraft p c).Rooted := h.regraft hp hc hnot
  refine h.induction_down (P := fun d => t.Within c d →
    ((t.regraft p c).Above a d ↔ t.Within a p ∨ t.Above a d ∧ ¬t.Above a c)) ?_ ?_ hd hin
  · intro hin
    exact absurd hin (h.not_within_zero hp hnot)
  · intro q d hq ih hin
    by_cases hdc : d = c
    · -- the top itself: its new parent is outside the subtree
      subst hdc
      have hq' : (t.regraft p d).parent? d = some p := by rw [parent?_regraft hc, if_pos rfl]
      rw [hu.above_iff_of_parent hq', h.above_regraft_of_not_within hp hc hnot hp hnot, Within,
        eq_comm (a := p)]
      exact ⟨Or.inl, fun hor => hor.resolve_right fun hand => hand.2 hand.1⟩
    · have hin' : t.Within c q := ((h.within_iff_of_parent hq).mp hin).resolve_left hdc
      have hq' : (t.regraft p c).parent? d = some q := by
        rw [parent?_regraft hc, if_neg hdc, hq]
      rw [hu.above_iff_of_parent hq', h.above_iff_of_parent hq, ih hin']
      constructor
      · rintro (rfl | hap | ⟨haq, hac⟩)
        · exact Or.inr ⟨Or.inl rfl, h.not_above_of_within hc hin'⟩
        · exact Or.inl hap
        · exact Or.inr ⟨Or.inr haq, hac⟩
      · rintro (hap | ⟨rfl | haq, hac⟩)
        · exact Or.inr (Or.inl hap)
        · exact Or.inl rfl
        · exact Or.inr (Or.inr ⟨haq, hac⟩)

end

lemma lt_size_of_above (h : t.Rooted) (had : t.Above a d) : d < t.size := by
  rw [Above, Relation.TransGen.tail'_iff] at had
  obtain ⟨q, -, hqd⟩ := had
  exact lt_size_of_parent ((h.mem_children q d).mp hqd)

lemma not_within_of_size_le (h : t.Rooted) (hc : c < t.size) (hd : t.size ≤ d) : ¬t.Within c d := by
  rintro (rfl | hcd)
  · omega
  · have hlt := h.lt_size_of_above hcd
    omega

/-- A move is possible if both nodes are there and the new parent is not in the subtree that
moves. -/
lemma attach_eq_ok_iff_not_within (h : t.Rooted) : t.attach p c = (.ok (), u) ↔
    p < t.size ∧ c < t.size ∧ ¬t.Within c p ∧ t.regraft p c = u := by
  rw [attach_eq_ok_iff, ← Bool.not_eq_true, h.isAncestor_iff, Within, not_or]
  tauto

/-- What is above a node after a move, for every node and whether or not it has moved. -/
lemma above_attach_iff (h : t.Rooted) (hattach : t.attach p c = (.ok (), u)) (a d : Nat) :
    (¬t.Within c d → (u.Above a d ↔ t.Above a d)) ∧
      (t.Within c d → (u.Above a d ↔ t.Within a p ∨ t.Above a d ∧ ¬t.Above a c)) := by
  have hu : u.Rooted := h.attach hattach
  obtain ⟨hp, hc, hnot, rfl⟩ := h.attach_eq_ok_iff_not_within.mp hattach
  rcases Nat.lt_or_ge d t.size with hd | hd
  · exact ⟨h.above_regraft_of_not_within hp hc hnot hd, h.above_regraft_of_within hp hc hnot hd⟩
  · refine ⟨fun _ => iff_of_false (fun hal => ?_) fun had => ?_, fun hin => ?_⟩
    · have hlt := hu.lt_size_of_above hal
      rw [size_regraft] at hlt
      omega
    · have hlt := h.lt_size_of_above had
      omega
    · exact absurd hin (h.not_within_of_size_le hc hd)

/-- What is below a node changes only if the node was above the one that moves, or is so after the
move. -/
lemma descendants_attach (h : t.Rooted) (hattach : t.attach p c = (.ok (), u)) (hold : ¬t.Above a c)
    (hnew : ¬u.Above a c) : {d | u.Above a d} = {d | t.Above a d} := by
  have hnot : ¬t.Within a p := by
    intro hap
    exact hnew (((h.above_attach_iff hattach a c).2 (Or.inl rfl)).mpr (Or.inl hap))
  ext d
  change u.Above a d ↔ t.Above a d
  by_cases hin : t.Within c d
  · rw [(h.above_attach_iff hattach a d).2 hin]
    exact ⟨fun hor => (hor.resolve_left hnot).1, fun had => Or.inr ⟨had, hold⟩⟩
  · exact (h.above_attach_iff hattach a d).1 hin

/-- A subtree that is moved stays as it is. -/
lemma within_attach_iff (h : t.Rooted) (hattach : t.attach p c = (.ok (), u)) (d : Nat) :
    u.Within c d ↔ t.Within c d := by
  have hc : c < t.size := (attach_eq_ok_iff.mp hattach).2.1
  have hcu : c < u.size := by
    obtain ⟨-, -, -, -, rfl⟩ := attach_eq_ok_iff.mp hattach
    rwa [size_regraft]
  have hsame := h.descendants_attach hattach (h.not_above_self hc)
    ((h.attach hattach).not_above_self hcu)
  exact or_congr_right (Set.ext_iff.mp hsame d)

end Rooted

/-! ### Attempts to move a node -/

/-- Attempts to move a node in a tree that has been built, and in which moves have been tried
before. An attempt is successful if both nodes are there and the one to be moved is neither the new
parent nor above it; otherwise the tree stays as it is. Of the nodes themselves a move changes the
parent of the moved one, with its mark, the children of the old parent, which lose it, and those of
the new parent, where it comes last. Above the nodes of the moved subtree, the new parent and what
is above it take the place of what was above the moved node. So what is below a node changes only
for nodes that were or are above the moved one, and the subtree itself stays as it is. -/
theorem attach_moves_subtree {t₀ : RenderTree} (h : build steps parallel = .ok t₀)
    (calls : List (Nat × Nat)) (p c : Nat) :
    let t := t₀.attachEach calls
    ((∃ u, t.attach p c = (.ok (), u)) ↔ p < t.size ∧ c < t.size ∧ c ≠ p ∧ ¬t.Above c p) ∧
    (∀ f u, t.attach p c = (.error f, u) → u = t ∧ t.attachEach [(p, c)] = t) ∧
    ∀ u, t.attach p c = (.ok (), u) →
      t.attachEach [(p, c)] = u ∧ u.size = t.size ∧
      (∀ i, u.step? i = t.step? i) ∧ (∀ name, u.indexOf? name = t.indexOf? name) ∧
      (∀ i, u.parent? i = if i = c then some p else t.parent? i) ∧
      (∀ i, u.parallel? i = if i = c then some true else t.parallel? i) ∧
      (∀ i, u.children i =
        (if t.parent? c = some i then (t.children i).filter (· ≠ c) else t.children i) ++
          if i = p then [c] else []) ∧
      (∀ a d, ¬t.Within c d → (u.Above a d ↔ t.Above a d)) ∧
      (∀ a d, t.Within c d → (u.Above a d ↔ t.Within a p ∨ t.Above a d ∧ ¬t.Above a c)) ∧
      (∀ a, {d | u.Above a d} ≠ {d | t.Above a d} → t.Above a c ∨ u.Above a c) ∧
      ∀ d, u.Within c d ↔ t.Within c d := by
  intro t
  have ht : t.Rooted := rooted_of_build h calls
  have hmoves : Moves (serial steps) t := (moves_of_build h).trans (moves_attachEach t₀ calls)
  refine ⟨?_, fun f u hu => ?_, fun u hu => ?_⟩
  · simp only [ht.attach_eq_ok_iff_not_within, Within, not_or, exists_and_left, exists_eq',
      and_true, ne_comm (a := c), ne_eq]
  · obtain ⟨-, rfl⟩ := attach_eq_error_iff.mp hu
    exact ⟨rfl, by simp [attachEach, hu]⟩
  obtain ⟨hp, hc, -, rfl⟩ := ht.attach_eq_ok_iff_not_within.mp hu
  refine ⟨by simp [attachEach, hu], size_regraft, fun i => step?_regraft, fun name => ?_,
    fun i => parent?_regraft hc, fun i => ?_, fun i => children_regraft hp,
    fun a d => (ht.above_attach_iff hu a d).1, fun a d => (ht.above_attach_iff hu a d).2,
    fun a => ?_, ht.within_attach_iff hu⟩
  · rw [indexOf?_eq_lastPlace? hmoves, indexOf?_eq_lastPlace? (hmoves.tail ⟨p, c, hu⟩)]
  · obtain ⟨n, hn⟩ := exists_node hc
    rw [parallel?_regraft]
    by_cases hi : i = c
    · simp [hi, parallel?, hn]
    · simp [hi]
  · intro hchanged
    by_contra hneither
    rw [not_or] at hneither
    exact hchanged (ht.descendants_attach hu hneither.1 hneither.2)

/-- The list, with the chart and the note after it, moves from the head to the foot, which is on
another branch; a second move of the foot below the note is refused. -/
theorem attach_moves_subtree_list :
    ∃ t u, build (["head", "list", "chart", "note", "foot"].map Step.plain)
        (.ofList [("head", ["list", "foot"])]) = .ok t ∧
      t.attach 4 1 = (.ok (), u) ∧ t.children 0 = [1, 4] ∧ u.children 0 = [4] ∧ u.children 4 = [1] ∧
      ¬t.Above 4 3 ∧ u.Above 4 3 ∧ u.attachEach [(3, 4)] = u := by
  obtain ⟨t, ht, hfacts⟩ := exists_of_any_toOption (P := fun t =>
      t.size = 5 && t.children 0 = [1, 4] && t.children 4 = [] && t.parent? 1 = some 0 &&
      t.isAncestor 1 3 && !t.isAncestor 4 3 && !t.isAncestor 1 4)
    (x := build (["head", "list", "chart", "note", "foot"].map Step.plain)
      (.ofList [("head", ["list", "foot"])])) (by decide +kernel)
  have habove (a d : Nat) : t.isAncestor a d = true ↔ t.Above a d :=
    (rooted_of_build ht []).isAncestor_iff
  simp only [Bool.and_eq_true, decide_eq_true_eq, Bool.not_eq_true', Bool.eq_false_iff, ne_eq,
    habove] at hfacts
  obtain ⟨⟨⟨⟨⟨⟨hsize, hhead⟩, hfoot⟩, hparent⟩, hnote⟩, hout⟩, hfree⟩ := hfacts
  have hstart : t.attachEach [] = t := rfl
  obtain ⟨hpossible, -, hmoved⟩ := attach_moves_subtree ht [] 4 1
  simp only [hstart] at hpossible hmoved
  obtain ⟨u, hu⟩ := hpossible.mpr ⟨by rw [hsize]; decide, by rw [hsize]; decide, by decide, hfree⟩
  obtain ⟨-, -, -, -, -, -, hchildren, -, hwithin, -, -⟩ := hmoved u hu
  have hfootNote : u.Above 4 3 := (hwithin 4 3 (Or.inr hnote)).mpr (Or.inl (Or.inl rfl))
  refine ⟨t, u, ht, hu, hhead, ?_, ?_, hout, hfootNote, ?_⟩
  · simp [hchildren, hparent, hhead]
  · simp [hchildren, hparent, hfoot]
  · obtain ⟨hpossible, hrefused, -⟩ := attach_moves_subtree ht [(4, 1)] 3 4
    have hsame : t.attachEach [(4, 1)] = u := by simp [attachEach, hu]
    rw [hsame] at hpossible hrefused
    rcases hagain : u.attach 3 4 with ⟨f | ⟨⟩, v⟩
    · exact (hrefused f v hagain).2
    · exact absurd hfootNote (hpossible.mp ⟨v, hagain⟩).2.2.2

end RenderTree

end PageRender
