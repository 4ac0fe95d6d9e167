import PageRender.Proofs.Dispatch.Completion
import PageRender.Proofs.Pass.Step
import PageRender.Proofs.Service.Restore

/-!
# Answers of a service

The answers that a request may get, in whatever order its components are rendered, and what is known
of a pass when it is ready. The pages of a catalog have been made from pages that were given, so
that every component bears the name under which it is kept; so do all components of a pass that is
ready.
-/

namespace PageRender

/-- Every component bears the name under which it is kept. -/
def Named (components : Dict Component) : Prop :=
  ∀ name c, components.get? name = some c → c.name = name

lemma named_syncNames (p : Page) : Named p.syncNames.components := by
  intro name c h
  simp only [Page.syncNames, Dict.get?_map, Option.map_eq_some_iff] at h
  obtain ⟨original, -, rfl⟩ := h
  rfl

/-- The components with which a page has been completed bear their names if those of the default page
do. -/
lemma Page.Completes.named {default live live' : Page} {names : List String}
    (h : Completes default live names live') (hdefault : Named default.components)
    (hlive : Named live.components) : Named live'.components := by
  intro name c hc
  change live'.component? name = some c at hc
  rw [h.component? name] at hc
  split at hc
  · cases hfound : live.component? name with
    | some d =>
      rw [hfound] at hc
      cases hc
      exact hlive name c hfound
    | none =>
      rw [hfound] at hc
      exact hdefault name c hc
  · exact hlive name c hc

namespace Catalog

/-- Every scenario has been made from a page. -/
def FromPages (c : Catalog) : Prop :=
  ∀ key scenario, c.scenarios.get? key = some scenario →
    ∃ page : Page, scenario.page = page.syncNames

lemma fromPages_empty : ({} : Catalog).FromPages := by
  intro key scenario h
  cases h

/-- Registering a scenario that has been made from a page, with whatever renderers. -/
lemma FromPages.register {c c' : Catalog} (h : c.FromPages) (page : Page)
    (renderers : List Renderer)
    (hc : c.register (renderers.foldl Scenario.withRenderer (.ofPage page)) = (.ok (), c')) :
    c'.FromPages := by
  obtain ⟨-, -, rfl⟩ := Catalog.register_eq_ok_iff.mp hc
  intro key scenario hkey
  rw [Dict.get?_insert] at hkey
  split at hkey
  · cases hkey
    exact ⟨page, Scenario.page_withRenderers (.ofPage page) renderers⟩
  · exact h key scenario hkey

lemma FromPages.share {c : Catalog} (h : c.FromPages) (r : Renderer) : (c.share r).FromPages :=
  h

end Catalog

namespace Service

variable {s : Service} {request : Request} {prepared : Prepared} {ready : Ready}

/-- The answers that a request may get. -/
inductive Answers (s : Service) (request : Request) : Except Halt Response → Prop
  | refused (f : Fault) (h : s.ready request = .error f) : Answers s request (.error (.fault f))
  | overloaded (ready : Ready) (p : Panic) (h : s.ready request = .ok ready)
      (hload : (s.runner request ready.tree).overload? = some p) :
      Answers s request (.error (.panic p))
  | ended (ready : Ready) (moves : List Move) (log : List LogEntry)
      (outcome : Except Fault (List Nat)) (pass : Pass) (h : s.ready request = .ok ready)
      (hload : (s.runner request ready.tree).overload? = none)
      (hrun : Dispatch.Execution (s.runner request ready.tree) ready.pass moves log outcome pass) :
      Answers s request ((answer ready.live ready.mode outcome pass).mapError .fault)

/-- An answer is a response if no component has reported a fault and the walk has come to a good
end. -/
lemma answer_eq_ok_iff {live : Page} {mode : Mode} {outcome : Except Fault (List Nat)} {pass : Pass}
    {response : Response} : answer live mode outcome pass = .ok response ↔
      pass.blackboard.fault? = none ∧ ∃ completed, outcome = .ok completed ∧ response = {
        page := { live with components := pass.components, blackboard := some pass.blackboard }
        mode
        tally := pass.tally
        reports := pass.reports } := by
  unfold answer
  cases pass.blackboard.fault? with
  | some f => simp
  | none =>
    simp only [map_eq_ok_iff, true_and]
    exact ⟨fun ⟨completed, h, hr⟩ => ⟨completed, h, hr.symm⟩,
      fun ⟨completed, h, hr⟩ => ⟨completed, h, hr.symm⟩⟩

/-! ### Passes that are ready -/

/-- A prepared pass plans no component twice, and all its components bear their names. -/
structure Prepared.Sound (prepared : Prepared) : Prop where
  nodup : prepared.plan.names.Nodup
  named : Named prepared.live.components

lemma sound_of_prepare (hc : s.catalog.FromPages) (h : s.prepare request = .ok prepared) :
    Prepared.Sound prepared := by
  obtain ⟨scenario, hscenario, -, hcompletes, -⟩ := completes_of_prepare h
  have hdefault : Named scenario.page.components := by
    obtain ⟨page, hpage⟩ := hc _ _ (Catalog.scenario_eq_ok_iff.mp hscenario)
    rw [hpage]
    exact named_syncNames page
  refine ⟨nodup_of_prepare h, hcompletes.named hdefault ?_⟩
  unfold livePage
  split
  · exact named_syncNames _
  · exact hdefault

/-- A prepared pass with its tree, before its first step. -/
def Prepared.begin (prepared : Prepared) (tree : RenderTree) : Ready where
  live := prepared.live
  mode := prepared.plan.mode
  tree := tree
  pass := {
    components := prepared.live.components
    blackboard := (prepared.live.blackboard.getD .empty).clearFault
    tally := { planned := prepared.plan.steps.length } }

lemma ready_of_prepare_error {f : Fault} (h : s.prepare request = .error f) :
    s.ready request = .error f := by
  rw [Service.ready, h]
  rfl

lemma ready_of_prepare (h : s.prepare request = .ok prepared) : s.ready request =
    if prepared.plan.steps.isEmpty && s.settings.rejectEmptyPlan then
      .error (.invalidPage request.scenario "render plan is empty")
    else (Prepared.tree prepared).map (Prepared.begin prepared) := by
  rw [Service.ready, h, ok_bind]
  split
  · rfl
  · change (Prepared.tree prepared >>= _) = _
    cases Prepared.tree prepared <;> rfl

/-- A pass that is ready is one that has been prepared, with its tree. -/
lemma exists_prepared_of_ready (h : s.ready request = .ok ready) : ∃ prepared,
    s.prepare request = .ok prepared ∧
    RenderTree.build prepared.plan.steps prepared.parallel = .ok ready.tree ∧
    ready = Prepared.begin prepared ready.tree := by
  cases hprepared : s.prepare request with
  | error f =>
    rw [ready_of_prepare_error hprepared] at h
    cases h
  | ok prepared =>
    rw [ready_of_prepare hprepared] at h
    split at h
    · cases h
    · obtain ⟨tree, htree, rfl⟩ := map_eq_ok_iff.mp h
      exact ⟨prepared, rfl, mapError_eq_ok_iff.mp htree, rfl⟩

lemma build_of_ready (h : s.ready request = .ok ready)
    (hprepared : s.prepare request = .ok prepared) :
    RenderTree.build prepared.plan.steps prepared.parallel = .ok ready.tree := by
  obtain ⟨prepared', hprepared', hbuild, -⟩ := exists_prepared_of_ready h
  obtain rfl : prepared = prepared' := Except.ok.inj (hprepared.symm.trans hprepared')
  exact hbuild

lemma ready_eq_ok (h : s.ready request = .ok ready) : ∃ prepared, s.prepare request = .ok prepared ∧
    RenderTree.build prepared.plan.steps prepared.parallel = .ok ready.tree ∧
    ready.mode = prepared.plan.mode ∧ ready.pass.components = prepared.live.components ∧
    ready.pass.reports = [] := by
  obtain ⟨prepared, hprepared, hbuild, hready⟩ := exists_prepared_of_ready h
  refine ⟨prepared, hprepared, hbuild, ?_⟩
  rw [hready]
  exact ⟨rfl, rfl, rfl⟩

/-- The answer that is given is one of those that a request may get. -/
theorem answers_render (s : Service) (request : Request) :
    s.Answers request (s.render request) := by
  cases hready : s.ready request with
  | error f =>
    rw [render, hready]
    exact .refused f hready
  | ok ready =>
    have hmap : (Except.ok ready : Except Fault Ready).mapError Halt.fault = .ok ready := rfl
    cases hload : (s.runner request ready.tree).overload? with
    | some p =>
      have hrender : s.render request = .error (.panic p) := by
        simp only [render, hready, hmap, ok_bind, hload]
        rfl
      rw [hrender]
      exact .overloaded ready p hready hload
    | none =>
      have hrender : s.render request = (s.run request ready).mapError .fault := by
        simp only [render, hready, hmap, ok_bind, hload]
      obtain ⟨prepared, -, htree, -⟩ := ready_eq_ok hready
      obtain ⟨moves, log, hrun⟩ := Dispatch.exists_execution_run (r := s.runner request ready.tree)
        (RenderTree.rooted_of_build htree []) s.settings.permits_ne_zero ready.pass
      rw [hrender]
      exact .ended ready moves log _ _ hready hload hrun

end Service

end PageRender
