import Mathlib.Data.List.Duplicate
import PageRender.Proofs.Audit.Accept
import PageRender.Proofs.RenderTree.Reordered

/-!
# Parallel groups under an audit

No audit accepts a group that lists its own component, and a strict one accepts no child that is
listed twice. An audit calls both a child that two groups list and one that a single group names
again a child of another group. A tree does not take the second for a conflict: it moves the child
once.
-/

namespace PageRender

open List

/-- What a list has more than once stands somewhere after itself. -/
lemma one_lt_count_iff {α : Type} [DecidableEq α] {a : α} {l : List α} : 1 < l.count a ↔
    ∃ before after, l = before ++ a :: after ∧ a ∈ before := by
  rw [← Nat.succ_le_iff, ← duplicate_iff_two_le_count, duplicate_iff_sublist, cons_sublist_iff]
  constructor
  · rintro ⟨first, rest, rfl, hfirst, hrest⟩
    obtain ⟨before, after, rfl⟩ := append_of_mem (singleton_sublist.mp hrest)
    exact ⟨first ++ before, after, (append_assoc _ _ _).symm, mem_append_left _ hfirst⟩
  · rintro ⟨before, after, rfl, hbefore⟩
    exact ⟨before, a :: after, rfl, hbefore, singleton_sublist.mpr mem_cons_self⟩

namespace Page

variable {p : Page} {strict : Bool} {severity : Severity} {parent other child : String}

/-- No parallel group lists its own component, or a child twice. -/
def WellGrouped (p : Page) : Prop :=
  ∀ group ∈ p.layout.parallel.entries, group.1 ∉ group.2 ∧ group.2.Nodup

/-- The group of a component lists a child. -/
def Lists (p : Page) (parent child : String) : Prop :=
  ∃ children, p.layout.parallel.get? parent = some children ∧ child ∈ children

/-- The group of a component names a child more than once. -/
def Repeats (p : Page) (parent child : String) : Prop :=
  ∃ children, p.layout.parallel.get? parent = some children ∧ 1 < children.count child

/-- The group of a component lists a child that a group before it lists as well. -/
def Retakes (p : Page) (parent child : String) : Prop :=
  ∃ earlier children later, p.layout.parallel.entries = earlier ++ (parent, children) :: later ∧
    child ∈ children ∧ ∃ group ∈ earlier, child ≠ group.1 ∧ child ∈ group.2

/-- No slot fills a key twice. -/
def FillsOnce (p : Page) : Prop :=
  ∀ key slots, p.rendering.get? key = some slots → ∀ slot ∈ slots,
    (slot.bindings.map WrittenBinding.target).Nodup

/-- The page with every child once in its group. -/
def tidyGroups (p : Page) : Page :=
  { p with layout :=
    { p.layout with parallel := p.layout.parallel.map fun _ children => children.eraseDups } }

/-- A child is reported if its group names it again or another group has it already. -/
lemma shows_repeatedChild_iff :
    p.Shows strict severity ⟨.parallel parent, .repeatedChild child⟩ ↔
      severity = conflictSeverity strict ∧ child ≠ parent ∧
        (p.Repeats parent child ∨ p.Retakes parent child) := by
  constructor
  · intro h
    cases h with
    | @repeatedChild _ _ _ _ before after hgroups hne hrepeated =>
      refine ⟨rfl, hne, hrepeated.imp ?_ ?_⟩
      · intro hbefore
        exact ⟨before ++ child :: after, Dict.mem_entries_iff.mp (by simp [hgroups]),
          one_lt_count_iff.mpr ⟨before, after, rfl, hbefore⟩⟩
      · intro htaken
        exact ⟨_, _, _, hgroups, by simp, htaken⟩
  · rintro ⟨rfl, hne, ⟨children, hgroup, hcount⟩ | ⟨earlier, _, later, hgroups, hchild, htaken⟩⟩
    · obtain ⟨earlier, later, hgroups⟩ := append_of_mem (Dict.mem_entries_iff.mpr hgroup)
      obtain ⟨before, after, rfl, hbefore⟩ := one_lt_count_iff.mp hcount
      exact .repeatedChild hgroups hne (Or.inl hbefore)
    · obtain ⟨before, after, rfl⟩ := append_of_mem hchild
      exact .repeatedChild hgroups hne (Or.inr htaken)

lemma fillsOnce_iff (strict : Bool) : p.FillsOnce ↔ ∀ severity key i target,
    ¬p.Shows strict severity ⟨.slot key i, .repeatedTarget target⟩ := by
  constructor
  · intro h severity key i target hshows
    cases hshows with
    | @repeatedTarget _ slots _ slot before after b hslots hslot hbindings hrepeated =>
      have hnodup := h key slots hslots slot (mem_of_getElem? hslot)
      refine not_lt.mpr (nodup_iff_count_le_one.mp hnodup b.target) (one_lt_count_iff.mpr ?_)
      refine ⟨before.map WrittenBinding.target, after.map WrittenBinding.target, ?_, hrepeated⟩
      rw [hbindings, map_append, map_cons]
  · intro h key slots hslots slot hslot
    rw [nodup_iff_count_le_one]
    intro target
    by_contra hcount
    obtain ⟨filled, rest, htargets, hrepeated⟩ := one_lt_count_iff.mp (not_le.mp hcount)
    obtain ⟨before, others, hbindings, rfl, hothers⟩ := map_eq_append_iff.mp htargets
    obtain ⟨b, after, rfl, rfl, -⟩ := map_eq_cons_iff.mp hothers
    obtain ⟨i, hi⟩ := mem_iff_getElem?.mp hslot
    exact h _ key i b.target (.repeatedTarget hslots hi hbindings hrepeated)

/-- Conflicts concern targets or children. -/
lemma Shows.of_isConflict {finding : Finding} (h : p.Shows strict severity finding)
    (hconflict : finding.defect.isConflict = true) :
    (∃ key i target, finding = ⟨.slot key i, .repeatedTarget target⟩) ∨
      ∃ parent child, finding = ⟨.parallel parent, .repeatedChild child⟩ := by
  cases h with
  | repeatedTarget => exact Or.inl ⟨_, _, _, rfl⟩
  | repeatedChild => exact Or.inr ⟨_, _, rfl⟩
  | _ => cases hconflict

lemma Repeats.lists (h : p.Repeats parent child) : p.Lists parent child := by
  obtain ⟨children, hgroup, hcount⟩ := h
  exact ⟨children, hgroup, count_pos_iff.mp (Nat.zero_lt_of_lt hcount)⟩

lemma Retakes.lists (h : p.Retakes parent child) : p.Lists parent child := by
  obtain ⟨earlier, children, later, hgroups, hchild, -⟩ := h
  exact ⟨children, Dict.mem_entries_iff.mp (by simp [hgroups]), hchild⟩

lemma Retakes.exists_other (h : p.Retakes parent child) :
    ∃ other ≠ parent, p.Lists other child := by
  obtain ⟨earlier, children, later, hgroups, -, group, hgroup, -, hchild⟩ := h
  refine ⟨group.1, ?_, group.2, Dict.mem_entries_iff.mp (by simp [hgroups, hgroup]), hchild⟩
  intro hsame
  have hnodup := p.layout.parallel.nodup
  rw [hgroups, Entries.keys, map_append, map_cons, nodup_append] at hnodup
  exact hnodup.2.2 group.1 (mem_map_of_mem hgroup) parent mem_cons_self hsame

/-- Of two groups that list a child one stands after the other. -/
lemma retakes_of_lists (hne : parent ≠ other) (hparent : p.Lists parent child)
    (hother : p.Lists other child) (hchild : child ≠ parent) (hchild' : child ≠ other) :
    p.Retakes parent child ∨ p.Retakes other child := by
  obtain ⟨children, hgroup, hmem⟩ := hparent
  obtain ⟨children', hgroup', hmem'⟩ := hother
  obtain ⟨earlier, later, hgroups⟩ := append_of_mem (Dict.mem_entries_iff.mpr hgroup)
  -- the later of the two groups is the one that takes the child again
  have hentry := Dict.mem_entries_iff.mpr hgroup'
  rw [hgroups, mem_append, mem_cons] at hentry
  obtain hentry | hentry | hentry := hentry
  · exact Or.inl ⟨earlier, children, later, hgroups, hmem, _, hentry, hchild', hmem'⟩
  · cases hentry
    exact absurd rfl hne
  · obtain ⟨between, later, rfl⟩ := append_of_mem hentry
    refine Or.inr ⟨earlier ++ (parent, children) :: between, children', later, ?_, hmem',
      (parent, children), by simp, hchild, hmem⟩
    rw [hgroups, append_assoc, cons_append]

/-! ### Groups that do not overlap -/

lemma not_retakes_of_separate (h : RenderTree.Separate p.layout.parallel.entries) :
    ¬p.Retakes parent child := by
  intro hretakes
  obtain ⟨other, hne, others, hother, hchild⟩ := hretakes.exists_other
  obtain ⟨children, hgroup, hchild'⟩ := hretakes.lists
  exact hne (h _ (Dict.mem_entries_iff.mpr hother) _ (Dict.mem_entries_iff.mpr hgroup) child hchild
    hchild')

lemma wellGrouped_iff : p.WellGrouped ↔
    (∀ parent children, p.layout.parallel.get? parent = some children → parent ∉ children) ∧
      ∀ parent child, ¬p.Repeats parent child := by
  simp only [WellGrouped, Prod.forall, Dict.mem_entries_iff, Repeats, not_exists, not_and, not_lt,
    nodup_iff_count_le_one]
  constructor
  · intro h
    exact ⟨fun parent children hgroup => (h parent children hgroup).1,
      fun parent child children hgroup => (h parent children hgroup).2 child⟩
  · rintro ⟨hself, hrepeats⟩ parent children hgroup
    exact ⟨hself parent children hgroup, fun child => hrepeats parent child children hgroup⟩

/-! ### Groups in which every child stands once -/

lemma lists_tidyGroups : p.tidyGroups.Lists parent child ↔ p.Lists parent child := by
  simp [Lists, tidyGroups]

lemma not_repeats_tidyGroups : ¬p.tidyGroups.Repeats parent child := by
  rintro ⟨children, hgroup, hcount⟩
  rw [tidyGroups, Dict.get?_map, Option.map_eq_some_iff] at hgroup
  obtain ⟨written, -, rfl⟩ := hgroup
  exact Nat.not_lt.mpr (nodup_iff_count_le_one.mp (nodup_eraseDups written) child) hcount

lemma separate_tidyGroups (h : RenderTree.Separate p.layout.parallel.entries) :
    RenderTree.Separate p.tidyGroups.layout.parallel.entries := by
  rintro _ htidy _ htidy' child hchild hchild'
  obtain ⟨group, hgroup, rfl⟩ := mem_map.mp htidy
  obtain ⟨other, hother, rfl⟩ := mem_map.mp htidy'
  exact h group hgroup other hother child (mem_eraseDups.mp hchild) (mem_eraseDups.mp hchild')

lemma wellFormed_tidyGroups_iff : p.tidyGroups.WellFormed ↔ p.WellFormed := by
  have hgrouped : (∀ parent children, p.tidyGroups.layout.parallel.get? parent = some children →
      parent ∉ children) ↔
        ∀ parent children, p.layout.parallel.get? parent = some children → parent ∉ children := by
    simp [tidyGroups]
  constructor
  · intro h
    exact ⟨h.typed, h.named, h.bound, hgrouped.mp h.grouped⟩
  · intro h
    exact ⟨h.typed, h.named, h.bound, hgrouped.mpr h.grouped⟩

/-- A tree is the same whether a group names its children once or again. -/
lemma build_tidyGroups (steps : List Step) (p : Page) :
    RenderTree.build steps p.tidyGroups.layout.parallel =
      RenderTree.build steps p.layout.parallel := by
  have hplanned (group : String × List String) :
      RenderTree.plannedGroup? (steps.map Step.name) (group.1, group.2.eraseDups) =
        RenderTree.plannedGroup? (steps.map Step.name) group := by
    rw [RenderTree.plannedGroup?, RenderTree.plannedGroup?, eraseDups_filterMap_eraseDups]
  rw [RenderTree.build_eq_foldlM, RenderTree.build_eq_foldlM, tidyGroups, Dict.map,
    RenderTree.plannedGroups, RenderTree.plannedGroups, filterMap_map]
  simp only [Function.comp_def, hplanned]

end Page

namespace Audit

variable {p : Page} {parent child : String}

/-- A strict audit accepts what the other one accepts, unless it is repetitive in some way. -/
lemma accepts_strict_iff : (⟨true⟩ : Audit).accepts p = true ↔
    (⟨false⟩ : Audit).accepts p = true ∧ p.FillsOnce ∧
      ∀ parent child, ¬p.Repeats parent child ∧ ¬p.Retakes parent child := by
  constructor
  · intro h
    have hself := (accepts_lenient_iff.mp (accepts_lenient h)).grouped
    refine ⟨accepts_lenient h, (Page.fillsOnce_iff true).mpr ?_, ?_⟩
    · intro severity key i target hshows
      have hseverity : severity = .error := hshows.severity_eq
      exact accepts_iff.mp h _ (hseverity ▸ hshows)
    · intro parent child
      rw [← not_or]
      intro hrepeated
      have hne : child ≠ parent := by
        rintro rfl
        obtain ⟨children, hgroup, hchild⟩ := hrepeated.elim Page.Repeats.lists Page.Retakes.lists
        exact hself child children hgroup hchild
      exact accepts_iff.mp h _ (Page.shows_repeatedChild_iff.mpr ⟨rfl, hne, hrepeated⟩)
  · rintro ⟨haccepts, hfills, hchildren⟩
    refine accepts_iff.mpr ?_
    intro finding hshows
    obtain ⟨hfinding, hseverity⟩ := Page.shows_iff.mp hshows
    by_cases hconflict : finding.defect.isConflict
    · obtain ⟨key, i, target, rfl⟩ | ⟨parent, child, rfl⟩ := hshows.of_isConflict hconflict
      · exact (Page.fillsOnce_iff true).mp hfills _ key i target hshows
      · obtain ⟨-, -, hrepeated⟩ := Page.shows_repeatedChild_iff.mp hshows
        exact hrepeated.elim (hchildren parent child).1 (hchildren parent child).2
    · rw [severity_strict, if_neg hconflict] at hseverity
      exact accepts_iff.mp haccepts finding (Page.shows_iff.mpr ⟨hfinding, hseverity⟩)

/-- A strict audit that accepts a page has been through all its groups. -/
theorem wellGrouped_of_accepts (h : (⟨true⟩ : Audit).accepts p = true) : p.WellGrouped := by
  obtain ⟨haccepts, -, hchildren⟩ := accepts_strict_iff.mp h
  exact Page.wellGrouped_iff.mpr ⟨(accepts_lenient_iff.mp haccepts).grouped,
    fun parent child => (hchildren parent child).1⟩

/-- A child is reported as one of another group if it is, but also if its own group names it again,
and a strict audit refuses either. Of two groups that list a child, one is reported for it. What a
group names again makes no difference to the tree. If it is left out, only children are reported
that another group lists, and if no child is listed under two components, then a strict audit
accepts the page unless the other one refuses it or a slot fills a key twice. -/
theorem repeatedChild_reported_iff (p : Page) :
    (∀ (a : Audit) severity parent child,
      (severity, ⟨.parallel parent, .repeatedChild child⟩) ∈ a.issues p ↔
        severity = Page.conflictSeverity a.strict ∧ child ≠ parent ∧
          (p.Repeats parent child ∨ p.Retakes parent child)) ∧
    (∀ parent child, p.Retakes parent child → ∃ other ≠ parent, p.Lists other child) ∧
    (∀ parent other child, parent ≠ other → p.Lists parent child → p.Lists other child →
      child ≠ parent → child ≠ other → p.Retakes parent child ∨ p.Retakes other child) ∧
    ((⟨true⟩ : Audit).accepts p = true ↔ (⟨false⟩ : Audit).accepts p = true ∧ p.FillsOnce ∧
      ∀ parent child, ¬p.Repeats parent child ∧ ¬p.Retakes parent child) ∧
    (∀ steps, RenderTree.build steps p.tidyGroups.layout.parallel =
      RenderTree.build steps p.layout.parallel) ∧
    (∀ (a : Audit) severity parent child,
      (severity, ⟨.parallel parent, .repeatedChild child⟩) ∈ a.issues p.tidyGroups →
        ∃ other ≠ parent, p.Lists other child) ∧
    (RenderTree.Separate p.layout.parallel.entries →
      ((⟨true⟩ : Audit).accepts p.tidyGroups = true ↔
        (⟨false⟩ : Audit).accepts p = true ∧ p.FillsOnce)) := by
  refine ⟨?_, fun parent child => Page.Retakes.exists_other, ?_, accepts_strict_iff,
    fun steps => Page.build_tidyGroups steps p, ?_, ?_⟩
  · intro a severity parent child
    rw [mem_issues_iff, Page.shows_repeatedChild_iff]
  · intro parent other child
    exact Page.retakes_of_lists
  · intro a severity parent child hissue
    obtain ⟨-, -, hrepeats | hretakes⟩ :=
      Page.shows_repeatedChild_iff.mp (mem_issues_iff.mp hissue)
    · exact absurd hrepeats Page.not_repeats_tidyGroups
    · obtain ⟨other, hne, hother⟩ := hretakes.exists_other
      exact ⟨other, hne, Page.lists_tidyGroups.mp hother⟩
  · intro hseparate
    rw [accepts_strict_iff, accepts_lenient_iff, accepts_lenient_iff,
      Page.wellFormed_tidyGroups_iff]
    have hchildren (parent child : String) :
        ¬p.tidyGroups.Repeats parent child ∧ ¬p.tidyGroups.Retakes parent child :=
      ⟨Page.not_repeats_tidyGroups,
        Page.not_retakes_of_separate (Page.separate_tidyGroups hseparate)⟩
    simp only [hchildren, implies_true, and_true, not_false_eq_true, and_self]
    exact Iff.rfl

/-- A group that names its child again, and the only one that lists it. -/
def repeatingPage : Page where
  scenario := "news"
  layout := { parallel := .ofList [("head", ["list", "list"])] }
  components := .ofList [("head", .ofType "" "panel"), ("list", .ofType "" "panel")]

/-- Of the two groups that contend for a child the later one is reported, and another group has the
child. What a group repeats may be left out, and then a strict audit accepts it. -/
theorem repeatedChild_reported_iff_contended :
    (contendedPage.Retakes "ghost" "foot" ∨ contendedPage.Retakes "head" "foot") ∧
    (contendedPage.Retakes "head" "foot" ∧ ∃ other ≠ "head", contendedPage.Lists other "foot") ∧
    ((.warning, ⟨.parallel "head", .repeatedChild "foot"⟩) ∈
      (⟨false⟩ : Audit).issues contendedPage.tidyGroups ∧
        ∃ other ≠ "head", contendedPage.Lists other "foot") ∧
    (⟨true⟩ : Audit).accepts repeatingPage.tidyGroups = true := by
  obtain ⟨-, hretakes, hlists, -, -, htidy, -⟩ := repeatedChild_reported_iff contendedPage
  have hghost : contendedPage.Lists "ghost" "foot" := ⟨["foot"], by decide, by decide⟩
  have hhead : contendedPage.Lists "head" "foot" := ⟨["list", "foot"], by decide, by decide⟩
  have hhead' : contendedPage.Retakes "head" "foot" :=
    ⟨[("ghost", ["foot"])], ["list", "foot"], [], by decide, by decide, by decide⟩
  have hissue : (.warning, ⟨.parallel "head", .repeatedChild "foot"⟩) ∈
      (⟨false⟩ : Audit).issues contendedPage.tidyGroups := by decide +kernel
  obtain ⟨-, -, -, -, -, -, hstrict⟩ := repeatedChild_reported_iff repeatingPage
  have hfills : repeatingPage.FillsOnce := by
    intro key slots hslots
    cases hslots
  refine ⟨?_, ⟨hhead', hretakes "head" "foot" hhead'⟩, ⟨hissue, htidy _ _ _ _ hissue⟩, ?_⟩
  · exact hlists "ghost" "head" "foot" (by decide) hghost hhead (by decide) (by decide)
  · exact (hstrict (by decide)).mpr ⟨by decide +kernel, hfills⟩

/-- A child is called one of another group although no other group lists it, and a strict audit
refuses the page for it. The tree has the child once. -/
theorem repeatedChild_reported_alone :
    RenderTree.Separate repeatingPage.layout.parallel.entries ∧
    (¬∃ other ≠ "head", repeatingPage.Lists other "list") ∧
    ((⟨false⟩ : Audit).issues repeatingPage =
      [(.warning, ⟨.parallel "head", .repeatedChild "list"⟩)]) ∧
    (⟨true⟩ : Audit).check repeatingPage = .error (.invalidPage "news"
      "error: hierarchy.parallel.head: 'list' already belongs to another parallel group") ∧
    (RenderTree.build (["head", "list"].map Step.plain)
      repeatingPage.layout.parallel).map RenderTree.describe = .ok ["head => list"] := by
  refine ⟨by decide, ?_, by decide +kernel, by decide +kernel, by decide +kernel⟩
  rintro ⟨other, hne, children, hgroup, -⟩
  have hkey : other ∈ repeatingPage.layout.parallel.keys := Dict.mem_keys_of_get? hgroup
  rw [show repeatingPage.layout.parallel.keys = ["head"] by decide, mem_singleton] at hkey
  exact hne hkey

end Audit

end PageRender
