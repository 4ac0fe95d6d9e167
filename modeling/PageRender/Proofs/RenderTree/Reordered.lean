import Mathlib.Data.List.Sort
import PageRender.Proofs.Dict
import PageRender.Proofs.RenderTree.Forward
import PageRender.Proofs.RenderTree.Settled

/-!
# Groups in another order

What the order of its groups means for a page that lists no child under two components. Whichever
order builds a tree, it is the same tree, for every node has one place to go to. Whether an order
builds one is another matter, since each move is judged in the tree that the moves before it have
left: a node may wait for another until a later group moves it away.

All orders are refused if the nodes would wait for each other in a circle in the end. If they would
not, then the order that starts with the groups nearest to the root is not refused. And no order is
refused exactly if all groups point forward.
-/

namespace PageRender

open List

section

variable {α β : Type} [BEq α] [LawfulBEq α] {k : α} {l l' : List (α × β)}

lemma lookup_perm (h : l' ~ l) (hl : (l.map Prod.fst).Nodup) : l'.lookup k = l.lookup k := by
  apply Option.ext
  intro v
  rw [lookup_eq_some_iff_mem hl, lookup_eq_some_iff_mem ((h.map Prod.fst).nodup_iff.mpr hl),
    h.mem_iff]

end

/-- What is less than an element of a sorted list stands before it. -/
lemma mem_of_sorted {α : Type} {f : α → Nat} {before after : List α} {a b : α}
    (hsorted : (before ++ a :: after).Pairwise fun a b => f a ≤ f b)
    (hb : b ∈ before ++ a :: after) (hlt : f b < f a) : b ∈ before := by
  rw [pairwise_append, pairwise_cons] at hsorted
  obtain ⟨-, ⟨hafter, -⟩, -⟩ := hsorted
  rw [mem_append, mem_cons] at hb
  obtain hb | rfl | hb := hb
  · exact hb
  · exact absurd hlt (Nat.lt_irrefl _)
  · exact absurd hlt (Nat.not_lt_of_le (hafter b hb))

/-- The order of its entries is nothing by which a dictionary differs from another. -/
lemma Dict.sameBy_of_perm {α : Type} [BEq α] [LawfulBEq α] {d e : Dict α}
    (h : d.entries ~ e.entries) : Dict.sameBy (· == ·) d e = true := by
  rw [Dict.sameBy, Bool.and_eq_true, decide_eq_true_eq, all_eq_true]
  refine ⟨h.length_eq, ?_⟩
  rintro ⟨key, value⟩ hentry
  have hvalue : e.get? key = some value := mem_entries_iff.mp (h.mem_iff.mp hentry)
  simp [hvalue]

namespace RenderTree

variable {t u : RenderTree} {steps : List Step} {parallel reordered : Dict (List String)}
  {names : List String} {groups groups' : List (String × List String)}
  {planned planned' : List (Nat × List Nat)} {calls calls' : List (Nat × Nat)} {p c i j n : Nat}

/-- No child is listed under two components. -/
def Separate (groups : List (String × List String)) : Prop :=
  ∀ group ∈ groups, ∀ other ∈ groups, ∀ child ∈ group.2, child ∈ other.2 → group.1 = other.1

instance : Decidable (Separate groups) :=
  inferInstanceAs (Decidable (∀ group ∈ groups, ∀ other ∈ groups, ∀ child ∈ group.2,
    child ∈ other.2 → group.1 = other.1))

/-- No node is moved under two others. -/
def Single (calls : List (Nat × Nat)) : Prop :=
  ∀ p q c, (p, c) ∈ calls → (q, c) ∈ calls → p = q

/-- The node that a node comes to wait for once all moves are made, in whichever order: the one that
it is moved under, or the one planned before it if it is not moved. -/
def Link (calls : List (Nat × Nat)) (i p : Nat) : Prop :=
  (p, i) ∈ calls ∨ (∀ q, (q, i) ∉ calls) ∧ p + 1 = i

/-- Some of the nodes come to wait for each other in a circle. -/
def Circular (size : Nat) (calls : List (Nat × Nat)) : Prop :=
  ∃ i < size, Relation.TransGen (Link calls) i i

/-! ### Moves in another order -/

lemma Separate.single (h : Separate groups) : Single (callsOf (plannedGroups names groups)) := by
  intro p q c hp hq
  obtain ⟨group, hgroup, hp, child, hchild, hc⟩ := mem_callsOf_plannedGroups.mp hp
  obtain ⟨other, hother, hq, child', hchild', hc'⟩ := mem_callsOf_plannedGroups.mp hq
  obtain rfl := eq_of_lastPlace? hc hc'
  rw [h group hgroup other hother child hchild hchild', hq] at hp
  exact (Option.some.inj hp).symm

lemma plannedGroups_perm (names : List String) (h : groups' ~ groups) :
    plannedGroups names groups' ~ plannedGroups names groups :=
  h.filterMap _

lemma callsOf_perm (h : planned' ~ planned) : callsOf planned' ~ callsOf planned :=
  h.flatMap_right _

lemma Single.perm (h : Single calls) (hperm : calls' ~ calls) : Single calls' :=
  fun p q c hp hq => h p q c (hperm.mem_iff.mp hp) (hperm.mem_iff.mp hq)

lemma link_perm (h : calls' ~ calls) : Link calls' = Link calls := by
  funext i p
  simp only [Link, h.mem_iff]

lemma Single.link_unique (h : Single calls) {q : Nat} (hp : Link calls i p) (hq : Link calls i q) :
    p = q := by
  rcases hp with hp | ⟨hnot, hp⟩ <;> rcases hq with hq | ⟨hnot', hq⟩
  · exact h p q i hp hq
  · exact absurd hp (hnot' p)
  · exact absurd hq (hnot q)
  · omega

lemma Single.waitsFor_eq_some_iff (h : Single calls) :
    waitsFor calls i = some p ↔ Link calls i p := by
  refine ⟨mem_or_pred_of_waitsFor, ?_⟩
  intro hp
  cases hw : waitsFor calls i with
  | none =>
    obtain ⟨rfl, hnot⟩ := eq_zero_of_waitsFor hw
    rcases hp with hp | ⟨-, hp⟩
    · exact absurd hp (hnot p)
    · cases hp
  | some q => rw [h.link_unique (mem_or_pred_of_waitsFor hw) hp]

/-! ### One tree -/

lemma lastGroup?_eq_some_iff (h : Single (callsOf planned)) :
    lastGroup? planned i = some p ↔ (p, i) ∈ callsOf planned := by
  have hmem {q : Nat} (hq : lastGroup? planned i = some q) : (q, i) ∈ callsOf planned := by
    obtain ⟨group, hgroup, rfl⟩ := Option.map_eq_some_iff.mp hq
    have hplanned : group ∈ planned := by simpa using mem_of_find?_eq_some hgroup
    have hi : i ∈ group.2 := by simpa using find?_some hgroup
    exact mem_callsOf.mpr ⟨group.2, hplanned, hi⟩
  refine ⟨hmem, ?_⟩
  intro hp
  cases hlast : lastGroup? planned i with
  | none =>
    obtain ⟨children, hplanned, hi⟩ := mem_callsOf.mp hp
    have hnot := find?_eq_none.mp (Option.map_eq_none_iff.mp hlast) (p, children)
      (by simpa using hplanned)
    simp [hi] at hnot
  | some q => rw [h q p i (hmem hlast) hp]

lemma lastGroup?_perm (h : planned' ~ planned) (hsingle : Single (callsOf planned)) :
    lastGroup? planned' i = lastGroup? planned i := by
  apply Option.ext
  intro p
  rw [lastGroup?_eq_some_iff (hsingle.perm (callsOf_perm h)), lastGroup?_eq_some_iff hsingle,
    (callsOf_perm h).mem_iff]

lemma eq_of_nodes (hsize : t.size = u.size) (h : ∀ i < t.size, t.step? i = u.step? i ∧
    t.parent? i = u.parent? i ∧ t.parallel? i = u.parallel? i ∧ t.children i = u.children i) :
    t = u := by
  have hnodes : t.nodes = u.nodes := by
    apply Array.ext_getElem?
    intro i
    change t.node? i = u.node? i
    rcases Nat.lt_or_ge i t.size with hi | hi
    · obtain ⟨n, hn⟩ := exists_node hi
      obtain ⟨m, hm⟩ := exists_node (hsize ▸ hi)
      obtain ⟨hstep, hparent, hparallel, hchildren⟩ := h i hi
      obtain ⟨step, parent, children, parallel⟩ := n
      obtain ⟨step', parent', children', parallel'⟩ := m
      simp only [step?, parent?, parallel?, RenderTree.children, hn, hm, Option.map_some,
        Option.bind_some, Option.some.injEq] at hstep hparent hparallel hchildren
      rw [hn, hm, hstep, hparent, hparallel, hchildren]
    · rw [node?_eq_none.mpr hi, node?_eq_none.mpr (hsize ▸ hi)]
  cases t
  cases u
  exact congrArg RenderTree.mk hnodes

lemma Settled.eq_of_perm (ht : t.Settled n planned) (hu : u.Settled n planned')
    (hperm : planned' ~ planned) (hsingle : Single (callsOf planned))
    (hparents : (planned.map Prod.fst).Nodup) (hstep : ∀ i, t.step? i = u.step? i) : t = u := by
  have hlast (i : Nat) : lastGroup? planned' i = lastGroup? planned i :=
    lastGroup?_perm hperm hsingle
  apply eq_of_nodes
  · rw [ht.size_eq, hu.size_eq]
  · intro i hi
    rw [ht.size_eq] at hi
    refine ⟨hstep i, ?_, ?_, ?_⟩
    · rw [ht.parent_eq i hi, hu.parent_eq i hi, settledParent?, settledParent?, hlast]
    · rw [ht.parallel_eq i hi, hu.parallel_eq i hi, hlast]
    · rw [ht.children_eq i hi, hu.children_eq i hi]
      simp only [settledChildren, ownChildren, hlast, lookup_perm hperm hparents]

/-! ### Circles -/

/-- Nodes of a tree do not wait for each other in a circle. -/
lemma not_circular (ht : t.Rooted) (hwaits : ∀ i < t.size, t.parent? i = waitsFor calls i)
    (hsingle : Single calls) : ¬Circular t.size calls := by
  rintro ⟨i, hi, hcircle⟩
  obtain ⟨j, hij, hji⟩ := Relation.TransGen.head'_iff.mp hcircle
  have hparent : t.parent? i = some j := by
    rw [hwaits i hi, hsingle.waitsFor_eq_some_iff]
    exact hij
  have hup : Upstream calls i j := by
    refine Relation.ReflTransGen.mono ?_ _ _ hji
    intro x y
    exact hsingle.waitsFor_eq_some_iff.mpr
  apply ht.not_above_self hi
  rw [ht.above_iff_of_parent hparent, eq_comm]
  exact (upstream_iff_above ht hwaits (ht.parent_lt hparent)).mp hup

open Classical in
/-- The number of nodes that a node comes to wait for, directly or not. -/
noncomputable def depth (size : Nat) (calls : List (Nat × Nat)) (i : Nat) : Nat :=
  ((Finset.range size).filter fun j => Relation.TransGen (Link calls) i j).card

lemma depth_lt (hcircle : ¬Circular n calls) (hlink : Link calls i j) (hj : j < n) :
    depth n calls j < depth n calls i := by
  classical
  apply Finset.card_lt_card
  rw [Finset.ssubset_iff_of_subset]
  · refine ⟨j, ?_, ?_⟩
    · simpa [hj] using Relation.TransGen.single hlink
    · intro hmem
      exact hcircle ⟨j, hj, (Finset.mem_filter.mp hmem).2⟩
  · intro k hk
    obtain ⟨hk, hjk⟩ := Finset.mem_filter.mp hk
    exact Finset.mem_filter.mpr ⟨hk, hjk.head hlink⟩

/-- Without a circle, moves are possible if they start with those under the nodes nearest to the
root: all that a node is to wait for has then been moved before something is moved under it. -/
lemma feasible_of_sorted (hbound : ∀ call ∈ calls, call.1 < n ∧ call.2 < n)
    (hcircle : ¬Circular n calls)
    (hsorted : calls.Pairwise fun call other => depth n calls call.1 ≤ depth n calls other.1) :
    Feasible calls := by
  intro before p c after hsplit hup
  have hcall : (p, c) ∈ calls := by simp [hsplit]
  obtain ⟨hp, hc⟩ := hbound (p, c) hcall
  have hearlier {call : Nat × Nat} (hmem : call ∈ calls)
      (hlt : depth n calls call.1 < depth n calls p) : call ∈ before := by
    refine mem_of_sorted (f := fun call => depth n calls call.1) ?_ (hsplit ▸ hmem) hlt
    rwa [← hsplit]
  -- the way from `p` up to a node is the one that all moves together make
  have hway {x : Nat} (hx : Upstream before x p) :
      Relation.ReflTransGen (Link calls) p x ∧ depth n calls x ≤ depth n calls p ∧ x < n := by
    induction hx with
    | refl => exact ⟨.refl, Nat.le_refl _, hp⟩
    | @tail x y _ hxy ih =>
      obtain ⟨hpx, hdepth, hx⟩ := ih
      have hlink : Link calls x y := by
        rcases mem_or_pred_of_waitsFor hxy with hmem | ⟨hnot, hpred⟩
        · left
          rw [hsplit]
          exact mem_append_left _ hmem
        · refine Or.inr ⟨?_, hpred⟩
          intro q hq
          have hlt : depth n calls q < depth n calls x :=
            depth_lt hcircle (Or.inl hq) (hbound (q, x) hq).1
          exact hnot q (hearlier hq (Nat.lt_of_lt_of_le hlt hdepth))
      have hy : y < n := by
        rcases hlink with hmem | ⟨-, rfl⟩
        · exact (hbound (y, x) hmem).1
        · omega
      have hlt := depth_lt hcircle hlink hy
      exact ⟨hpx.tail hlink, by omega, hy⟩
  exact hcircle ⟨c, hc, .head' (Or.inl hcall) (hway hup).1⟩

/-! ### Orders of groups -/

lemma exists_reordered (h : groups ~ parallel.entries) :
    ∃ reordered : Dict (List String), reordered.entries = groups :=
  ⟨⟨groups, (h.map Prod.fst).nodup_iff.mpr parallel.nodup⟩, rfl⟩

/-- Sorted groups have sorted moves. -/
lemma pairwise_callsOf (f : Nat → Nat)
    (h : planned.Pairwise fun group other => f group.1 ≤ f other.1) :
    (callsOf planned).Pairwise fun call other => f call.1 ≤ f other.1 := by
  rw [callsOf, pairwise_flatMap]
  constructor
  · intro group _
    rw [pairwise_map]
    exact pairwise_of_forall fun _ _ => Nat.le_refl _
  · refine h.imp ?_
    intro group other hle call hcall call' hcall'
    obtain ⟨c, -, rfl⟩ := mem_map.mp hcall
    obtain ⟨d, -, rfl⟩ := mem_map.mp hcall'
    exact hle

/-- Groups can be put in an order in which the parents of their moves ascend. -/
lemma exists_sorted (f : Nat → Nat) (names : List String) (groups : List (String × List String)) :
    ∃ sorted, sorted ~ groups ∧ (callsOf (plannedGroups names sorted)).Pairwise
      fun call other => f call.1 ≤ f other.1 := by
  let rank (group : String × List String) : Nat := ((lastPlace? group.1 names).map f).getD 0
  let below := Order.Preimage rank (· ≤ ·)
  refine ⟨groups.mergeSort (below · ·), mergeSort_perm _ _, pairwise_callsOf f ?_⟩
  refine (pairwise_mergeSort' below groups).filterMap _ ?_
  intro group other hle planned hplanned planned' hplanned'
  obtain ⟨p, hp, rfl⟩ := Option.map_eq_some_iff.mp hplanned
  obtain ⟨q, hq, rfl⟩ := Option.map_eq_some_iff.mp hplanned'
  simpa [below, Order.Preimage, rank, hp, hq] using hle

/-- As long as nothing is moved that was planned before a node, the node is below all of that. -/
lemma upstream_of_le (hcalls : ∀ call ∈ calls, p < call.2) (hle : c ≤ p) : Upstream calls c p := by
  induction hle with
  | refl => exact .refl
  | @step p hle ih =>
    have hunmoved (q : Nat) : (q, p + 1) ∉ calls :=
      fun hcall => Nat.lt_irrefl _ (hcalls (q, p + 1) hcall)
    have hlast : waitsFor calls (p + 1) = some p := by
      cases hw : waitsFor calls (p + 1) with
      | none => cases (eq_zero_of_waitsFor hw).1
      | some q =>
        rcases mem_or_pred_of_waitsFor hw with hcall | ⟨-, hpred⟩
        · exact absurd hcall (hunmoved q)
        · rw [Nat.succ.inj hpred]
    refine .head hlast (ih ?_)
    intro call hcall
    exact Nat.lt_of_succ_lt (hcalls call hcall)

/-- A group that points backward is refused if it comes first. -/
lemma not_feasible_of_backward {children : List Nat} (hc : c ∈ children) (hle : c ≤ p) :
    ¬Feasible (callsOf ((p, children) :: planned)) := by
  obtain ⟨d, hd⟩ : ∃ d, children.find? (· ≤ p) = some d :=
    Option.isSome_iff_exists.mp (find?_isSome.mpr ⟨c, hc, by simpa using hle⟩)
  obtain ⟨hdp, before, after, rfl, hbefore⟩ := find?_eq_some_iff_append.mp hd
  intro h
  apply h (before.map (p, ·)) p d (after.map (p, ·) ++ callsOf planned)
  · simp [callsOf]
  · apply upstream_of_le
    · simpa using hbefore
    · simpa using hdp

/-! ### Trees that are refused -/

lemma upstream_of_attach {f : TreeFault} (hp : p < t.size) (hc : c < t.size)
    (h : (t.attach p c).1 = .error f) : f = .upstream (t.nameOf p) (t.nameOf c) := by
  obtain ⟨⟨hout, -⟩ | ⟨-, -, hf⟩, -⟩ := attach_eq_error_iff.mp (Prod.ext h rfl)
  · exact absurd ⟨hp, hc⟩ hout
  · exact hf.symm

lemma upstream_of_attachCalls {f : TreeFault}
    (hcalls : ∀ call ∈ calls, call.1 < steps.length ∧ call.2 < steps.length)
    (h : (serial steps).attachCalls calls = .error f) :
    ∃ parent child, f = .upstream parent child := by
  induction calls using reverseRecOn with
  | nil => cases h
  | append_singleton calls call ih =>
    obtain ⟨p, c⟩ := call
    rw [attachCalls_append_singleton, bind_eq_error_iff] at h
    rcases h with h | ⟨t, ht, h⟩
    · exact ih (fun call hcall => hcalls call (mem_append_left _ hcall)) h
    · obtain ⟨hp, hc⟩ : p < steps.length ∧ c < steps.length := hcalls (p, c) (by simp)
      have hsize : t.size = steps.length := by
        rw [(moves_of_attachCalls ht).size_eq, size_serial]
      rw [kept_eq_error_iff] at h
      exact ⟨_, _, upstream_of_attach (hsize ▸ hp) (hsize ▸ hc) h⟩

/-- A move is refused because of what the moves before it have made of the tree. -/
lemma upstream_of_build {f : TreeFault} (h : build steps parallel = .error f) :
    ∃ parent child, f = .upstream parent child := by
  rw [build_eq_callsOf] at h
  exact upstream_of_attachCalls (fun call => lt_length_of_mem_callsOf) h

lemma exists_error_iff {x : Except TreeFault RenderTree} :
    (∃ f, x = .error f) ↔ ¬∃ t, x = .ok t := by
  cases x <;> simp

/-- Unless nodes would wait for each other in a circle, some order of the groups is not refused. -/
lemma exists_order_of_not_circular (hcircle : ¬Circular steps.length
    (callsOf (plannedGroups (steps.map Step.name) parallel.entries))) :
    ∃ reordered : Dict (List String), reordered.entries ~ parallel.entries ∧
      ∃ t, build steps reordered = .ok t := by
  obtain ⟨sorted, hperm, hsorted⟩ := exists_sorted (depth steps.length
    (callsOf (plannedGroups (steps.map Step.name) parallel.entries))) (steps.map Step.name)
    parallel.entries
  obtain ⟨reordered, rfl⟩ := exists_reordered hperm
  refine ⟨reordered, hperm, exists_build_iff_feasible.mpr ?_⟩
  have hlink := link_perm (callsOf_perm (plannedGroups_perm (steps.map Step.name) hperm))
  apply feasible_of_sorted (n := steps.length)
  · intro call hcall
    exact lt_length_of_mem_callsOf hcall
  · rwa [Circular, hlink]
  · unfold depth at hsorted ⊢
    rwa [hlink]

section

variable (hseparate : Separate parallel.entries)

include hseparate

lemma not_circular_of_build (hperm : reordered.entries ~ parallel.entries)
    (h : build steps reordered = .ok t) : ¬Circular steps.length
      (callsOf (plannedGroups (steps.map Step.name) parallel.entries)) := by
  have hcalls := callsOf_perm (plannedGroups_perm (steps.map Step.name) hperm)
  have hsize := size_build h
  have hrooted := (rooted_serial steps).moves (moves_of_build h)
  rw [build_eq_callsOf] at h
  rw [Circular, ← link_perm hcalls, ← hsize]
  refine not_circular hrooted ?_ (hseparate.single.perm hcalls)
  intro i hi
  exact parent?_attachCalls h (hsize ▸ hi)

/-- All orders of groups are refused exactly if the nodes would wait for each other in a circle. -/
lemma all_refused_iff : (∀ reordered : Dict (List String), reordered.entries ~ parallel.entries →
    ∃ f, build steps reordered = .error f) ↔ Circular steps.length
      (callsOf (plannedGroups (steps.map Step.name) parallel.entries)) := by
  simp only [exists_error_iff]
  constructor
  · intro hall
    by_contra hcircle
    obtain ⟨reordered, hperm, hbuilt⟩ := exists_order_of_not_circular hcircle
    exact hall reordered hperm hbuilt
  · rintro hcircle reordered hperm ⟨t, ht⟩
    exact not_circular_of_build hseparate hperm ht hcircle

end

lemma exists_order_of_not_forward (hback : ¬Forward (steps.map Step.name) parallel.entries) :
    ∃ reordered : Dict (List String), reordered.entries ~ parallel.entries ∧
      ¬∃ t, build steps reordered = .ok t := by
  simp only [Forward, not_forall] at hback
  obtain ⟨group, hgroup, p, hp, child, hchild, c, hc, hle⟩ := hback
  obtain ⟨reordered, hreordered⟩ := exists_reordered (perm_cons_erase hgroup).symm
  refine ⟨reordered, hreordered ▸ (perm_cons_erase hgroup).symm, ?_⟩
  have hplanned := plannedGroup?_eq hp
  rw [exists_build_iff_feasible, hreordered, plannedGroups, filterMap_cons_some hplanned]
  exact not_feasible_of_backward ((mem_plannedGroup? hplanned).mpr ⟨child, hchild, hc⟩)
    (Nat.le_of_not_lt hle)

/-- No order of groups is refused exactly if all groups point forward. -/
lemma all_built_iff : (∀ reordered : Dict (List String), reordered.entries ~ parallel.entries →
    ∃ t, build steps reordered = .ok t) ↔ Forward (steps.map Step.name) parallel.entries := by
  constructor
  · intro hall
    by_contra hback
    obtain ⟨reordered, hperm, hrefused⟩ := exists_order_of_not_forward hback
    exact hrefused (hall reordered hperm)
  · intro hforward reordered hperm
    apply exists_build_of_forward
    intro group hgroup
    exact hforward group (hperm.mem_iff.mp hgroup)

/-! ### All orders -/

/-- Suppose that no child is listed under two components. Then the groups in two orders compare
equal, and the trees that they build are the same, if both are built. An order that is refused is
refused because a node is upstream of the one that it should wait for. All orders are refused
exactly if nodes would come to wait for each other in a circle, and none is exactly if all groups
point forward. -/
theorem build_reordered (steps : List Step) (parallel : Dict (List String))
    (hseparate : Separate parallel.entries) :
    (∀ a b : Dict (List String), a.entries ~ parallel.entries → b.entries ~ parallel.entries →
      Dict.sameBy (· == ·) a b = true ∧
      ∀ t u, build steps a = .ok t → build steps b = .ok u → t = u) ∧
    (∀ a : Dict (List String), a.entries ~ parallel.entries →
      ∀ f, build steps a = .error f → ∃ parent child, f = .upstream parent child) ∧
    ((∀ a : Dict (List String), a.entries ~ parallel.entries → ∃ f, build steps a = .error f) ↔
      Circular steps.length (callsOf (plannedGroups (steps.map Step.name) parallel.entries))) ∧
    ((∀ a : Dict (List String), a.entries ~ parallel.entries → ∃ t, build steps a = .ok t) ↔
      Forward (steps.map Step.name) parallel.entries) := by
  refine ⟨?_, fun a _ f => upstream_of_build, all_refused_iff hseparate, all_built_iff⟩
  intro a b ha hb
  refine ⟨Dict.sameBy_of_perm (ha.trans hb.symm), ?_⟩
  intro t u ht hu
  have hperm : plannedGroups (steps.map Step.name) b.entries ~
      plannedGroups (steps.map Step.name) a.entries :=
    plannedGroups_perm _ (hb.trans ha.symm)
  have hsingle : Single (callsOf (plannedGroups (steps.map Step.name) a.entries)) :=
    hseparate.single.perm (callsOf_perm (plannedGroups_perm _ ha))
  apply (settled_of_build ht).eq_of_perm (settled_of_build hu) hperm hsingle
  · exact nodup_plannedGroups a.nodup
  · intro i
    rw [step?_build ht, step?_build hu]

/-- Whether groups are refused may depend on their order: the list is to wait for the chart in the
end, and the chart for the head, but where it was planned the chart waits for the list. -/
theorem build_reordered_differs :
    let steps := ["head", "list", "chart"].map Step.plain
    let first : Dict (List String) := .ofList [("head", ["chart"]), ("chart", ["list"])]
    let second : Dict (List String) := .ofList [("chart", ["list"]), ("head", ["chart"])]
    (steps.map Step.name).Nodup ∧ Separate first.entries ∧ second.entries ~ first.entries ∧
      (∃ t, build steps first = .ok t) ∧
      build steps second = .error (.upstream "chart" "list") := by
  intro steps first second
  have hrefused : (build steps second).map (fun _ => ()) = .error (.upstream "chart" "list") := by
    decide +kernel
  exact ⟨by decide, by decide, by decide, exists_ok_of_toBool (by decide +kernel),
    map_eq_error_iff.mp hrefused⟩

/-- Groups that point forward build one tree in all of their orders. -/
theorem build_reordered_forward :
    let steps := ["head", "list", "note", "chart", "foot"].map Step.plain
    let parallel : Dict (List String) :=
      .ofList [("head", ["list", "note"]), ("list", ["chart"]), ("note", ["foot", "ghost"])]
    Separate parallel.entries ∧ ∃ t, ∀ reordered : Dict (List String),
      reordered.entries ~ parallel.entries → build steps reordered = .ok t := by
  intro steps parallel
  have hseparate : Separate parallel.entries := by decide
  obtain ⟨hsame, -, -, hall⟩ := build_reordered steps parallel hseparate
  have hbuilt := hall.mpr (by decide)
  obtain ⟨t, ht⟩ := hbuilt parallel (.refl _)
  refine ⟨hseparate, t, ?_⟩
  intro reordered hperm
  obtain ⟨u, hu⟩ := hbuilt reordered hperm
  rw [hu, (hsame reordered parallel hperm (.refl _)).2 u t hu ht]

end RenderTree

end PageRender
