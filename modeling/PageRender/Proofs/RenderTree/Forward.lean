import PageRender.Proofs.RenderTree.Declared

/-!
# Groups that point forward

A page whose groups only move components that are planned later than their own is never refused,
however the groups overlap: after any of the moves every node waits for an earlier one, so that no
node can be upstream of one that comes before it.
-/

namespace PageRender

open List

namespace RenderTree

variable {steps : List Step} {parallel : Dict (List String)} {names : List String}
  {groups : List (String × List String)}

/-- Every planned child of a group comes after the planned component of the group. -/
def Forward (names : List String) (groups : List (String × List String)) : Prop :=
  ∀ group ∈ groups, ∀ p ∈ lastPlace? group.1 names, ∀ child ∈ group.2,
    ∀ c ∈ lastPlace? child names, p < c

instance : Decidable (Forward names groups) :=
  inferInstanceAs (Decidable (∀ group ∈ groups, ∀ p ∈ lastPlace? group.1 names,
    ∀ child ∈ group.2, ∀ c ∈ lastPlace? child names, p < c))

lemma forward_iff : Forward names groups ↔
    ∀ call ∈ callsOf (plannedGroups names groups), call.1 < call.2 := by
  constructor
  · rintro h ⟨p, c⟩ hcall
    obtain ⟨group, hgroup, hp, child, hchild, hc⟩ := mem_callsOf_plannedGroups.mp hcall
    exact h group hgroup p hp child hchild c hc
  · intro h group hgroup p hp child hchild c hc
    exact h (p, c) (mem_callsOf_plannedGroups.mpr ⟨group, hgroup, hp, child, hchild, hc⟩)

lemma exists_build_of_forward (h : Forward (steps.map Step.name) parallel.entries) :
    ∃ t, build steps parallel = .ok t :=
  exists_build_iff_feasible.mpr (feasible_of_forward (forward_iff.mp h))

/-- Groups that point forward are never refused, whichever nodes they list, how often and in which
order, and every node of the tree waits for an earlier one. -/
theorem build_of_forward (h : Forward (steps.map Step.name) parallel.entries) :
    ∃ t, build steps parallel = .ok t ∧ ∀ i p, t.parent? i = some p → p < i := by
  obtain ⟨t, ht⟩ := exists_build_of_forward h
  refine ⟨t, ht, ?_⟩
  intro i p hp
  have hi : i < steps.length := size_build ht ▸ lt_size_of_parent hp
  rw [build_eq_callsOf] at ht
  rw [parent?_attachCalls ht hi] at hp
  rcases mem_or_pred_of_waitsFor hp with hcall | ⟨-, rfl⟩
  · exact forward_iff.mp h (p, i) hcall
  · exact Nat.lt_succ_self p

/-- Groups that take components from each other, name one twice, and move the component of an
earlier group. -/
theorem build_of_forward_overlapping :
    let steps := ["head", "list", "note", "list", "chart"].map Step.plain
    let parallel : Dict (List String) := .ofList
      [("note", ["chart", "list", "chart"]), ("head", ["note", "ghost", "list"]),
        ("list", ["chart"])]
    Forward (steps.map Step.name) parallel.entries ∧
      ∃ t, build steps parallel = .ok t ∧ ∀ i p, t.parent? i = some p → p < i := by
  intro steps parallel
  have hforward : Forward (steps.map Step.name) parallel.entries := by decide
  exact ⟨hforward, build_of_forward hforward⟩

end RenderTree

end PageRender
