import Mathlib.Data.List.NodupEquivFin
import PageRender.Proofs.Audit.Groups
import PageRender.Proofs.Plan.Known
import PageRender.Proofs.RenderTree.Declared
import PageRender.Proofs.Service.Refusal

/-!
# Opening pages that a strict audit has accepted

What a strict audit settles of the tree with which a page opens, and what it leaves unsettled. Every
slot of the page can be planned, and no group moves its own component, or a child twice. Whether a
move is possible depends on those before it and on the order of the plan, which no audit looks at: a
component that a group moves must not be upstream of the group's own component.
-/

namespace PageRender

open List

namespace RenderTree

variable {names : List String} {name : String} {groups : List (String × List String)}

lemma declared_singleton (hgroups : ∀ group ∈ groups, group.1 ∉ group.2) :
    declared [name] groups = [] := by
  apply eq_nil_iff_forall_not_mem.mpr
  rintro ⟨p, c⟩ hcall
  obtain ⟨parent, children, child, hgroup, hchild, hp, hc⟩ := mem_declared.mp hcall
  have hsame {other : String} {i : Nat} (h : [name].idxOf? other = some i) : other = name := by
    obtain ⟨_, hfound, -⟩ := idxOf?_eq_some_iff.mp h
    rw [← hfound, getElem_singleton]
  apply hgroups _ hgroup
  rw [hsame hp, ← hsame hc]
  exact hchild

/-- The place of a component that is planned once. -/
lemma idxOf?_eq_some_of_nodup (hnames : names.Nodup) {i j : Nat} (hi : names[i]? = some name)
    (hj : names.idxOf? name = some j) : i = j := by
  obtain ⟨hlt, hname, -⟩ := idxOf?_eq_some_iff.mp hj
  obtain ⟨hlt', hname'⟩ := List.getElem?_eq_some_iff.mp hi
  exact (hnames.getElem_inj_iff).mp (hname'.trans hname.symm)

/-- Groups whose children are planned after the group's component declare possible moves. -/
lemma feasible_declared (hnames : names.Nodup)
    (hgroups : ∀ group ∈ groups, ∀ child ∈ group.2, group.1 ∈ names → child ∈ names →
      [group.1, child] <+ names) : Feasible (declared names groups) := by
  apply feasible_of_forward
  rintro ⟨p, c⟩ hcall
  obtain ⟨parent, children, child, hgroup, hchild, hp, hc⟩ := mem_declared.mp hcall
  have hmem {name : String} {i : Nat} (h : names.idxOf? name = some i) : name ∈ names := by
    obtain ⟨hlt, rfl, -⟩ := idxOf?_eq_some_iff.mp h
    exact getElem_mem hlt
  have hpair := hgroups _ hgroup child hchild (hmem hp) (hmem hc)
  obtain ⟨place, hplace⟩ := sublist_iff_exists_orderEmbedding_getElem?_eq.mp hpair
  rw [← idxOf?_eq_some_of_nodup hnames (hplace 0).symm hp,
    ← idxOf?_eq_some_of_nodup hnames (hplace 1).symm hc]
  exact place.lt_iff_lt.mpr Nat.one_pos

/-- A plan has a tree exactly if the moves that the groups declare are possible. -/
lemma exists_build_iff {steps : List Step} {parallel : Dict (List String)}
    (hnames : (steps.map Step.name).Nodup) (hgroups : ∀ group ∈ parallel.entries, group.2.Nodup) :
    (∃ t, build steps parallel = .ok t) ↔
      Feasible (declared (steps.map Step.name) parallel.entries) := by
  rw [exists_build_iff_feasible, callsOf_plannedGroups hnames hgroups]

end RenderTree

namespace Plan

variable {default live : Page} {request : Request} {p : Plan} {f : Fault}

/-- Planning fails because a binding cannot be understood, or because a component was asked for
alone that is not planned. -/
lemma fault_of_ofRequest (h : ofRequest default request live = .error f) :
    (∃ expression reason, f = .invalidBinding expression reason) ∨
      ∃ name, f = .notPlanned name := by
  have hslots {event : Slot → Event} {slots : List Slot}
      (h : (slots.mapM fun slot => Step.ofSlot slot (event slot)) = .error f) :
      ∃ expression reason, f = .invalidBinding expression reason := by
    obtain ⟨slot, -, hslot⟩ := exists_of_mapM_eq_error h
    obtain ⟨b, -, hb⟩ := exists_of_mapM_eq_error (map_eq_error_iff.mp hslot)
    obtain ⟨fault, -, hf⟩ := mapError_eq_error_iff.mp hb
    exact ⟨b.expression, fault.reason, hf.symm⟩
  rcases bind_eq_error_iff.mp h with hwhole | ⟨p, -, honly⟩
  · left
    unfold whole at hwhole
    split at hwhole
    all_goals
      rcases bind_eq_error_iff.mp hwhole with hsteps | ⟨steps, -, hpure⟩
      · exact hslots hsteps
      · cases hpure
  · right
    split at honly
    · next name _ => exact ⟨name, eq_notPlanned_of_only honly⟩
    · cases honly

end Plan

namespace Service

variable {s : Service} {request : Request} {scenario : Scenario} {prepared : Prepared}
  {page : Page} {plan : Plan} {reason : String} {f : Fault}

lemma prepare_ne_invalidTree : s.prepare request ≠ .error (.invalidTree reason) := by
  intro h
  rcases bind_eq_error_iff.mp h with hscenario | ⟨scenario, hscenario, h⟩
  · unfold Catalog.scenario at hscenario
    split at hscenario <;> cases hscenario
  rcases bind_eq_error_iff.mp h with hplan | ⟨plan, -, h⟩
  · obtain ⟨expression, reason, hf⟩ | ⟨name, hf⟩ := Plan.fault_of_ofRequest hplan
    · cases hf
    · cases hf
  rcases bind_eq_error_iff.mp h with haccept | ⟨live, -, hpure⟩
  · obtain ⟨live, step, -, hstep⟩ := exists_of_foldlM_eq_error haccept
    rcases accept_eq_error_iff.mp hstep with hrestore | ⟨restored, c, -, -, hr⟩
    · cases (restore_eq_error_iff.mp hrestore).2.2
    · cases Catalog.eq_noRenderer_of_renderer (Catalog.scenario_eq_ok_iff.mp hscenario) hr
  · cases hpure

/-- A pass is refused for its tree exactly if it has been prepared and the tree cannot be built. -/
lemma ready_eq_invalidTree_iff : (∃ reason, s.ready request = .error (.invalidTree reason)) ↔
    ∃ prepared, s.prepare request = .ok prepared ∧
      ¬∃ t, RenderTree.build prepared.plan.steps prepared.parallel = .ok t := by
  constructor
  · rintro ⟨reason, h⟩
    cases hprepare : s.prepare request with
    | error f =>
      rw [ready_of_prepare_error hprepare] at h
      cases h
      exact absurd hprepare prepare_ne_invalidTree
    | ok prepared =>
      refine ⟨prepared, rfl, ?_⟩
      rintro ⟨t, ht⟩
      rw [ready_of_prepare hprepare] at h
      split at h
      · cases h
      · rw [map_eq_error_iff, Prepared.tree, ht] at h
        cases h
  · rintro ⟨prepared, hprepare, hnone⟩
    cases hbuild : RenderTree.build prepared.plan.steps prepared.parallel with
    | ok t => exact absurd ⟨t, hbuild⟩ hnone
    | error g =>
      have htree : Prepared.tree prepared = .error g.fault := by
        rw [Prepared.tree, hbuild]
        rfl
      refine ⟨g.reason, ?_⟩
      rw [ready_of_prepare hprepare, steps_of_tree_error htree, htree]
      rfl

/-- What is prepared for a page that opens: its own plan, narrowed down if one component is asked
for alone, and its own groups. -/
lemma opening_of_prepare
    (hscenario : s.catalog.scenarios.get? request.scenario = some scenario)
    (hsnapshot : request.snapshot = none) (hprepare : s.prepare request = .ok prepared)
    (hplan : Plan.full scenario.page scenario.page = .ok plan) :
    prepared.parallel = scenario.page.layout.parallel ∧
      (request.only = none ∧ prepared.plan = plan ∨
        (∃ name, request.only = some name) ∧ ∃ step, prepared.plan.steps = [step]) := by
  obtain ⟨scenario', hfound, hofRequest, hlive, hparallel⟩ := prepare_eq_ok_iff.mp hprepare
  obtain rfl : scenario = scenario' :=
    Except.ok.inj ((Catalog.scenario_eq_ok_iff.mpr hscenario).symm.trans hfound)
  have hdefault : livePage scenario.page request = scenario.page := by
    rw [livePage, hsnapshot]
  rw [hdefault] at hofRequest hlive
  constructor
  · have hcompletes := (completes_of_acceptAll (nodup_of_prepare hprepare) hlive).1
    have hlayout : prepared.live.layout = scenario.page.layout := by rw [hcompletes.page_eq]
    rw [hparallel, parallelGroups, hlayout, ite_self]
  · have hwhole : Plan.whole scenario.page request scenario.page = .ok plan := by
      rw [Plan.whole, hsnapshot, hplan]
    rw [Plan.ofRequest, hwhole, ok_bind] at hofRequest
    cases honly : request.only with
    | none =>
      rw [honly] at hofRequest
      cases hofRequest
      exact Or.inl ⟨rfl, rfl⟩
    | some name =>
      rw [honly] at hofRequest
      dsimp only [Plan.only] at hofRequest
      split at hofRequest
      · next step _ =>
        refine Or.inr ⟨⟨name, rfl⟩, step, ?_⟩
        rw [← Except.ok.inj hofRequest]
      · cases hofRequest

/-- A page that a strict audit accepts can be planned in full. The tree of this plan can be built
exactly if no group moves a component that is upstream of the group's own component when its turn
comes; so it can be built if all planned children come after the components of their groups. A
service that has the page as a default page refuses a first open for the tree exactly if the tree
cannot be built, apart from requests for one component alone, which never meet this refusal. -/
theorem opens_of_accepts (h : (⟨true⟩ : Audit).accepts page = true) :
    ∃ plan, Plan.full page page = .ok plan ∧
      let calls := RenderTree.declared plan.names page.layout.parallel.entries
      ((∃ t, RenderTree.build plan.steps page.layout.parallel = .ok t) ↔
        RenderTree.Feasible calls) ∧
      ((∀ group ∈ page.layout.parallel.entries, ∀ child ∈ group.2, group.1 ∈ plan.names →
        child ∈ plan.names → [group.1, child] <+ plan.names) → RenderTree.Feasible calls) ∧
      ∀ (s : Service) (request : Request) (scenario : Scenario),
        s.catalog.scenarios.get? request.scenario = some scenario → scenario.page = page →
        request.snapshot = none →
        ((∃ reason, s.FailsUndispatched request (.invalidTree reason)) ↔
          request.only = none ∧ (∃ prepared, s.prepare request = .ok prepared) ∧
            ¬RenderTree.Feasible calls) := by
  obtain ⟨plan, hplan, -⟩ := Plan.exists_full (Audit.wellListed_of_accepts h) rfl
  have hgroups : page.WellGrouped := Audit.wellGrouped_of_accepts h
  have hnames : plan.names.Nodup := Plan.nodup_full hplan
  have hbuild : (∃ t, RenderTree.build plan.steps page.layout.parallel = .ok t) ↔
      RenderTree.Feasible (RenderTree.declared plan.names page.layout.parallel.entries) :=
    RenderTree.exists_build_iff hnames fun group hgroup => (hgroups group hgroup).2
  refine ⟨plan, hplan, hbuild, RenderTree.feasible_declared hnames, ?_⟩
  rintro s request scenario hscenario rfl hsnapshot
  simp only [failsUndispatched_iff, ready_eq_invalidTree_iff, ← hbuild]
  constructor
  · rintro ⟨prepared, hprepare, hnone⟩
    obtain ⟨hparallel, ⟨honly, rfl⟩ | ⟨-, step, hstep⟩⟩ :=
      opening_of_prepare hscenario hsnapshot hprepare hplan
    · rw [hparallel] at hnone
      exact ⟨honly, ⟨prepared, hprepare⟩, hnone⟩
    · -- the tree of one node: its groups move nothing
      exfalso
      apply hnone
      rw [hparallel, hstep]
      have hnodup : ([step].map Step.name).Nodup := nodup_singleton _
      apply (RenderTree.exists_build_iff hnodup fun group hgroup => (hgroups group hgroup).2).mpr
      rw [map_singleton, RenderTree.declared_singleton fun group hgroup => (hgroups group hgroup).1]
      exact RenderTree.feasible_nil
  · rintro ⟨honly, ⟨prepared, hprepare⟩, hnone⟩
    obtain ⟨hparallel, ⟨-, rfl⟩ | ⟨⟨name, hname⟩, -⟩⟩ :=
      opening_of_prepare hscenario hsnapshot hprepare hplan
    · refine ⟨prepared, hprepare, ?_⟩
      rwa [hparallel]
    · rw [hname] at honly
      cases honly

/-- The page with three components is not refused when it opens: its group moves later components
only. -/
theorem opens_of_accepts_threePanels :
    (⟨true⟩ : Audit).accepts threePanels.syncNames = true ∧ ∃ catalog,
      kept (Catalog.register { audit := ⟨true⟩ }
        ((Scenario.ofPage threePanels).withKind (Kind.blank "panel"))) = .ok catalog ∧
      ∀ reason, ¬FailsUndispatched { catalog } { scenario := "news" } (.invalidTree reason) := by
  have haccepts : (⟨true⟩ : Audit).accepts threePanels.syncNames = true := by decide +kernel
  refine ⟨haccepts, ?_⟩
  obtain ⟨plan, hplan, -, hforward, hopens⟩ := opens_of_accepts haccepts
  have hnames : (Plan.full threePanels.syncNames threePanels.syncNames).toOption.map Plan.names =
      some ["head", "list", "foot"] := by decide +kernel
  rw [hplan] at hnames
  have hplanned : plan.names = ["head", "list", "foot"] := Option.some.inj hnames
  obtain ⟨catalog, hcatalog⟩ : ∃ catalog, kept (Catalog.register { audit := ⟨true⟩ }
      ((Scenario.ofPage threePanels).withKind (Kind.blank "panel"))) = .ok catalog :=
    exists_ok_of_toBool (by decide +kernel)
  refine ⟨catalog, hcatalog, ?_⟩
  intro reason hfails
  obtain ⟨-, -, hcrossed⟩ := (hopens { catalog } { scenario := "news" } _
    (Catalog.get?_of_register (kept_eq_ok_iff.mp hcatalog)) rfl rfl).mp ⟨reason, hfails⟩
  apply hcrossed
  apply hforward
  rw [hplanned]
  decide +kernel

/-- A page with a component whose group has the component that is planned before it. -/
def crossedPanels : Page where
  scenario := "news"
  layout := { parallel := .ofList [("foot", ["head"])] }
  components := .ofList [("head", .ofType "" "panel"), ("foot", .ofType "" "panel")]
  rendering := .ofList [(Page.defaultKey, [{ name := "head" }, { name := "foot" }])]

/-- A strict audit accepts a page that can never be opened: the group of the second component moves
the first one, which is upstream of it. -/
theorem accepts_of_unopenable :
    (⟨true⟩ : Audit).accepts crossedPanels = true ∧
    (∃ plan, Plan.full crossedPanels crossedPanels = .ok plan ∧
      RenderTree.build plan.steps crossedPanels.layout.parallel =
        .error (.upstream "foot" "head")) ∧
    ∃ catalog, kept (Catalog.register { audit := ⟨true⟩ }
        ((Scenario.ofPage crossedPanels).withKind (Kind.blank "panel"))) = .ok catalog ∧
      render { catalog } { scenario := "news" } = .error (.fault (.invalidTree
        "'head' cannot render after 'foot': it is already upstream of it")) := by
  have hbuild : (Plan.full crossedPanels crossedPanels).toOption.map (fun plan =>
      (RenderTree.build plan.steps crossedPanels.layout.parallel).map fun _ => ()) =
      some (.error (.upstream "foot" "head")) := by decide +kernel
  obtain ⟨plan, hplan⟩ : ∃ plan, Plan.full crossedPanels crossedPanels = .ok plan :=
    exists_ok_of_toBool (by decide +kernel)
  rw [hplan] at hbuild
  obtain ⟨catalog, hcatalog⟩ : ∃ catalog, kept (Catalog.register { audit := ⟨true⟩ }
      ((Scenario.ofPage crossedPanels).withKind (Kind.blank "panel"))) = .ok catalog :=
    exists_ok_of_toBool (by decide +kernel)
  have hrender : (kept (Catalog.register { audit := ⟨true⟩ }
      ((Scenario.ofPage crossedPanels).withKind (Kind.blank "panel")))).toOption.map (fun catalog =>
        (render { catalog } { scenario := "news" }).map fun _ => ()) =
      some (.error (.fault (.invalidTree
        "'head' cannot render after 'foot': it is already upstream of it"))) := by
    decide +kernel
  rw [hcatalog] at hrender
  exact ⟨by decide +kernel, ⟨plan, hplan, map_eq_error_iff.mp (Option.some.inj hbuild)⟩, catalog,
    hcatalog, map_eq_error_iff.mp (Option.some.inj hrender)⟩

end Service

end PageRender
