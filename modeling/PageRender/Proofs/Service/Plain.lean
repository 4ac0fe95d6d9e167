import PageRender.CommandLine.ScenarioFile
import PageRender.Proofs.Dict
import PageRender.Proofs.Lifecycle.Plain
import PageRender.Proofs.Service.Independence
import PageRender.Proofs.Service.Lookup
import PageRender.Proofs.Service.Opening
import PageRender.Proofs.Service.Precedence
import PageRender.Proofs.Service.Session

/-!
# Pages that are rendered plainly

Plain kinds have nothing of their own that could fail: their components are copied in and out, and
on the reserved operations nothing is done. So when the page of a scenario file opens, only its
bindings and its parallel groups can make a pass fail, apart from a plan that is refused because it
is empty.
-/

namespace PageRender

open List

/-! ### Plain kinds -/

namespace Kind

variable {name : String} {flattens : Bool} {input : Input}

/-- The render of a component of a plain kind cannot halt when a page opens or is refreshed. -/
lemma exists_render_plain (name : String) (flattens : Bool) (bench : Bench Component)
    (h : input.event.operation = Event.openOperation ∨
      input.event.operation = Event.refreshOperation) : ∃ report bench',
    ({ Kind.plain name with flattens }.renderer.render input).run.run bench =
      (.ok report, bench') :=
  ⟨_, _, render_plain h rfl⟩

lemma keeps_plain {α : Type} {part : Component → α} (h : Component.Inherent part) :
    { Kind.plain name with flattens }.Keeps part where
  encode := by
    intro model c c' hencode
    cases hencode
    exact h.write model c
  finish := by
    intro context bench bench' hfinish
    cases hfinish
    rfl

lemma leavesBlackboard_plain : { Kind.plain name with flattens }.LeavesBlackboard where
  visible _ _ := .pure _
  operations _ _ h := by cases h
  onOpen _ := .pure _
  onRefresh _ := .pure _
  before _ := .pure _
  after _ := .pure _
  finish _ := .pure _

end Kind

/-! ### The catalog of a scenario file -/

namespace Scenario

variable {s : Scenario} {rendererOf : String → Renderer}
  {names : List String} {typeName : String}

/-- Renderers for some types are found for these. -/
lemma get?_withRenderers (h : ∀ name, (rendererOf name).typeName = name) :
    ((names.map rendererOf).foldl withRenderer s).renderers.get? typeName =
      if typeName ∈ names then some (rendererOf typeName) else s.renderers.get? typeName := by
  induction names generalizing s with
  | nil => simp
  | cons name names ih =>
    rw [map_cons, foldl_cons, ih, withRenderer, Dict.get?_insert, h]
    by_cases hrest : typeName ∈ names
    · simp [hrest]
    · by_cases hname : typeName = name <;> simp [hrest, hname]

end Scenario

namespace ScenarioFile

variable {f : ScenarioFile} {catalog : Catalog} {typeName name : String} {c : Component}
  {r : Renderer}

/-- The renderer of a type of the file. -/
def rendererOf (f : ScenarioFile) (typeName : String) : Renderer :=
  { Kind.plain typeName with flattens := f.flatten.contains typeName }.renderer

lemma scenario_eq :
    f.scenario = (f.typeNames.map f.rendererOf).foldl Scenario.withRenderer (.ofPage f.page) := by
  rw [foldl_map]
  rfl

lemma page_scenario : f.scenario.page = f.page.syncNames := by
  rw [scenario_eq, Scenario.page_withRenderers]
  rfl

lemma mem_typeNames (hc : f.page.syncNames.component? name = some c) :
    c.typeName ∈ f.typeNames := by
  rw [typeNames, mem_eraseDups]
  rw [Page.component?, Page.syncNames, Dict.get?_map, Option.map_eq_some_iff] at hc
  obtain ⟨original, hget, rfl⟩ := hc
  have hvalue : original ∈ f.page.components.values := mem_map_of_mem (Dict.mem_entries_iff.mpr hget)
  exact mem_map.mpr ⟨original, hvalue, rfl⟩

section

variable (h : f.catalog = .ok catalog)

include h

lemma get?_of_catalog : catalog.scenarios.get? f.page.scenario = some f.scenario := by
  have hkey : f.scenario.key = f.page.scenario := by
    rw [scenario_eq, Scenario.key_withRenderers]
    rfl
  rw [← hkey]
  exact Catalog.get?_of_register (kept_eq_ok_iff.mp h)

lemma wellListed_of_catalog : f.page.syncNames.WellListed := by
  rw [← page_scenario]
  exact (Catalog.Built.registered .empty (kept_eq_ok_iff.mp h)).wellListed (get?_of_catalog h)

/-- All types of the file have plain renderers, and no others have any. -/
lemma renderer_eq_ok_iff : catalog.renderer f.page.scenario typeName = .ok r ↔
    typeName ∈ f.typeNames ∧ r = f.rendererOf typeName := by
  have hshared : catalog.shared = .empty := by
    obtain ⟨-, -, rfl⟩ := Catalog.register_eq_ok_iff.mp (kept_eq_ok_iff.mp h)
    rfl
  rw [Catalog.renderer_eq_ok_iff, hshared]
  simp only [get?_of_catalog h, Option.some.injEq, exists_eq_left', Dict.get?_empty]
  rw [scenario_eq, Scenario.get?_withRenderers fun _ => rfl]
  by_cases hmem : typeName ∈ f.typeNames
  · simp [hmem, eq_comm]
  · simp [hmem, Scenario.ofPage]

lemma keeps_of_catalog {α : Type} {part : Component → α} (hpart : Component.Inherent part) :
    catalog.Keeps f.page.scenario part := by
  intro typeName r hr
  obtain ⟨-, rfl⟩ := (renderer_eq_ok_iff h).mp hr
  exact (Kind.keeps_plain hpart).renderer hpart

end

end ScenarioFile

/-- The steps of a page that opens have the operation that every component gets then. -/
lemma Plan.operation_of_full {default live : Page} {p : Plan} {step : Step}
    (h : full default live = .ok p) (hstep : step ∈ p.steps) :
    step.event.operation = Event.openOperation := by
  obtain ⟨steps, hsteps, hp⟩ := bind_eq_ok_iff.mp h
  cases hp
  have hevents : steps.map (fun step => step.event.operation) =
      (firstSlots [] (openingSlots default live)).map fun _ => Event.openOperation := by
    refine map_eq_of_mapM (fun slot step hslot => ?_) hsteps
    obtain ⟨bindings, -, rfl⟩ := map_eq_ok_iff.mp hslot
    rfl
  have hmem : step.event.operation ∈ steps.map fun step => step.event.operation :=
    mem_map_of_mem hstep
  rw [hevents] at hmem
  obtain ⟨slot, -, hslot⟩ := mem_map.mp hmem
  exact hslot.symm

namespace Service

variable {s : Service} {f : ScenarioFile} {request : Request} {ready : Ready} {prepared : Prepared}
  {a : Except Halt Response}

/-- What a request may get that opens a plain page with a given plan: a response, or a fault of the
groups, of a binding, or for the plan being empty. -/
inductive PlainAnswer (s : Service) (request : Request) (plan : Plan) :
    Except Halt Response → Prop
  | response (response : Response) : PlainAnswer s request plan (.ok response)
  | invalidTree (reason : String) :
      PlainAnswer s request plan (.error (.fault (.invalidTree reason)))
  | notRendered (component dependency : String) :
      PlainAnswer s request plan (.error (.fault (.notRendered component dependency)))
  | noState (component key : String) :
      PlainAnswer s request plan (.error (.fault (.noState component key)))
  | emptyPlan (hreject : s.settings.rejectEmptyPlan = true) (hempty : plan.steps = []) :
      PlainAnswer s request plan
        (.error (.fault (.invalidPage request.scenario "render plan is empty")))

section

variable (hf : f.catalog = .ok s.catalog) (hscenario : request.scenario = f.page.scenario)

include hf hscenario

/-- A request that opens the page is prepared. -/
lemma exists_prepared_plain (hsnapshot : request.snapshot = none) (honly : request.only = none) :
    ∃ prepared, s.prepare request = .ok prepared ∧
      Plan.full f.page.syncNames f.page.syncNames = .ok prepared.plan ∧
      prepared.parallel = f.page.layout.parallel := by
  have hget : s.catalog.scenarios.get? request.scenario = some f.scenario := by
    rw [hscenario]
    exact ScenarioFile.get?_of_catalog hf
  have hlisted := ScenarioFile.wellListed_of_catalog hf
  rw [← ScenarioFile.page_scenario] at hlisted ⊢
  obtain ⟨plan, hplan, hknown⟩ := Plan.exists_full hlisted (rfl : f.scenario.page.rendering = _)
  have hlive : livePage f.scenario.page request = f.scenario.page := by
    rw [livePage, hsnapshot]
  have hofRequest : Plan.ofRequest f.scenario.page request f.scenario.page = .ok plan := by
    rw [Plan.ofRequest, Plan.whole, hsnapshot]
    dsimp only
    rw [hplan, ok_bind, honly]
    rfl
  cases haccept : plan.steps.foldlM (accept s.catalog request.scenario f.scenario.page)
      f.scenario.page with
  | error fault =>
    obtain ⟨step, -, c, hc, hr⟩ := exists_of_acceptAll_eq_error hknown haccept
    rw [ScenarioFile.page_scenario] at hc
    rw [hscenario, (ScenarioFile.renderer_eq_ok_iff hf).mpr
      ⟨ScenarioFile.mem_typeNames hc, rfl⟩] at hr
    cases hr
  | ok live =>
    have hprepare : s.prepare request = .ok ⟨live, plan, parallelGroups f.scenario.page live⟩ := by
      refine prepare_eq_ok_iff.mpr ⟨f.scenario, Catalog.scenario_eq_ok_iff.mpr hget, ?_, ?_, rfl⟩
      · rw [hlive]
        exact hofRequest
      · rw [hlive]
        exact haccept
    refine ⟨_, hprepare, hplan, ?_⟩
    rw [(opening_of_prepare hget hsnapshot hprepare hplan).1, ScenarioFile.page_scenario]
    rfl

/-- Only a binding can make a node of the page fail. -/
lemma bindingFault_of_failed {root i : Nat} {fault : Fault} {moves : List Move}
    {log : List LogEntry} {d : Dispatch Pass Pass.Job}
    (hprepared : s.prepare request = .ok prepared)
    (hplan : Plan.full f.page.syncNames f.page.syncNames = .ok prepared.plan)
    (hready : s.ready request = .ok ready) (hroot : ready.tree.root? = some root)
    (hcourse : Dispatch.Course (s.runner request ready.tree) root ready.pass moves log d)
    (hfault : .failed i fault ∈ log) : ∃ step : Step, step.BindingFault fault := by
  have hkeeps : s.catalog.Keeps request.scenario Component.typeName := by
    rw [hscenario]
    exact ScenarioFile.keeps_of_catalog hf Component.inherent_typeName
  obtain ⟨step, checked, hstep, -, hbinding | hrender⟩ :=
    fault_of_failed hprepared hready hroot hcourse hkeeps hfault
  · exact ⟨step, hbinding⟩
  · -- the render cannot have halted
    obtain ⟨resolved, r, board, halt, bench, hr, hrender, -⟩ := hrender
    have hr : s.catalog.renderer request.scenario checked.typeName = .ok r := hr
    rw [hscenario, ScenarioFile.renderer_eq_ok_iff hf] at hr
    obtain ⟨-, rfl⟩ := hr
    have hopening : (Pass.input (s.setting request) step).event.operation = Event.openOperation :=
      Plan.operation_of_full hplan (mem_steps_of_step hprepared hready hstep)
    obtain ⟨report, bench', hok⟩ := Kind.exists_render_plain checked.typeName
      (f.flatten.contains checked.typeName) ⟨checked.fill resolved, board⟩ (Or.inl hopening)
    cases hok.symm.trans hrender

lemma no_report_plain {moves : List Move} {log : List LogEntry}
    {outcome : Except Fault (List Nat)} {pass : Pass} (hready : s.ready request = .ok ready)
    (hrun : Dispatch.Execution (s.runner request ready.tree) ready.pass moves log outcome pass) :
    pass.blackboard.fault? = none := by
  have hleaves : s.LeavesBlackboard request ready.tree ready.pass := by
    intro i step c r hstep hc hr
    rw [hscenario, ScenarioFile.renderer_eq_ok_iff hf] at hr
    obtain ⟨-, rfl⟩ := hr
    exact Kind.leavesBlackboard_plain.renderer
  have hsame : pass.blackboard = ready.pass.blackboard :=
    hrun.world_holds (P := fun p => p.blackboard = ready.pass.blackboard) rfl
      fun hroot hcourse => blackboard_of_course (beginning_of_ready hready hroot) hleaves hcourse
  obtain ⟨prepared, -, -, hbegin⟩ := exists_prepared_of_ready hready
  rw [hsame, hbegin]
  exact Blackboard.fault?_clearFault _

end

/-- A pass is overloaded if it has something to render, and the settings ask for more permits than
there can be. -/
lemma exists_overload_iff {t : RenderTree} {steps : List Step} {parallel : Dict (List String)}
    (hbuild : RenderTree.build steps parallel = .ok t) :
    (∃ panic, (s.runner request t).overload? = some panic) ↔ steps ≠ [] ∧
      ∃ permits, s.settings.maxParallel = some permits ∧ mostPermits < permits := by
  have hroot : t.root?.isSome = true ↔ steps ≠ [] := by
    have ht : t.Rooted := RenderTree.rooted_of_build hbuild []
    rw [ht.root?_eq, RenderTree.size_build hbuild]
    cases steps <;> simp
  have hmany : (t.root?.isSome && s.settings.permits.any (mostPermits < ·)) = true ↔ steps ≠ [] ∧
      ∃ permits, s.settings.maxParallel = some permits ∧ mostPermits < permits := by
    rw [Bool.and_eq_true, Option.any_eq_true, hroot]
    simp only [Settings.permits, Option.filter_eq_some_iff, decide_eq_true_eq]
    refine and_congr_right fun _ => exists_congr fun permits => ?_
    constructor
    · rintro ⟨⟨hmax, -⟩, hlt⟩
      exact ⟨hmax, hlt⟩
    · rintro ⟨hmax, hlt⟩
      exact ⟨⟨hmax, Nat.zero_lt_of_lt hlt⟩, hlt⟩
  have hload : ((s.runner request t).overload?).isSome =
      (t.root?.isSome && s.settings.permits.any (mostPermits < ·)) := by
    rw [Runner.overload?]
    split
    · next hc => exact hc.symm
    · next hc => exact (Bool.eq_false_iff.mpr hc).symm
  rw [← hmany, ← hload, Option.isSome_iff_exists]

/-- What a prepared pass may be refused for. -/
lemma plainAnswer_of_refused {fault : Fault} (hprepared : s.prepare request = .ok prepared)
    (hready : s.ready request = .error fault) :
    PlainAnswer s request prepared.plan (.error (.fault fault)) := by
  rw [ready_of_prepare hprepared] at hready
  split at hready
  · next hempty =>
    obtain ⟨hempty, hreject⟩ := (Bool.and_eq_true _ _).mp hempty
    cases hready
    exact .emptyPlan hreject (isEmpty_iff.mp hempty)
  · obtain ⟨g, -, rfl⟩ := mapError_eq_error_iff.mp (map_eq_error_iff.mp hready)
    exact .invalidTree g.reason

lemma exists_ready_of_build {t : RenderTree} (hprepared : s.prepare request = .ok prepared)
    (hsteps : prepared.plan.steps ≠ [])
    (hbuild : RenderTree.build prepared.plan.steps prepared.parallel = .ok t) :
    ∃ ready, s.ready request = .ok ready := by
  refine ⟨Prepared.begin prepared t, ?_⟩
  rw [ready_of_prepare hprepared, if_neg (by simp [hsteps]), Prepared.tree, hbuild]
  rfl

/-- A request that opens the page of a registered scenario file, with any event, parameters and
locale, gets a response or a fault of the groups, of a binding, or for the plan being empty, in
whatever order the components are rendered. Only if the settings ask for more permits than there can
be it gets none of these: then a pass whose tree can be built, and has a node, breaks down before it
starts. -/
theorem plain_pages_answer (hf : f.catalog = .ok s.catalog)
    (hscenario : request.scenario = f.page.scenario) (hsnapshot : request.snapshot = none)
    (honly : request.only = none) (h : s.Answers request a) :
    ∃ plan, Plan.full f.page.syncNames f.page.syncNames = .ok plan ∧
      (PlainAnswer s request plan a ∨ ∃ panic, a = .error (.panic panic)) ∧
      ((∃ panic, a = .error (.panic panic)) ↔
        (∃ t, RenderTree.build plan.steps f.page.layout.parallel = .ok t) ∧ plan.steps ≠ [] ∧
          ∃ permits, s.settings.maxParallel = some permits ∧ mostPermits < permits) := by
  obtain ⟨prepared, hprepared, hplan, hparallel⟩ :=
    exists_prepared_plain hf hscenario hsnapshot honly
  refine ⟨prepared.plan, hplan, ?_⟩
  rw [← hparallel]
  cases h with
  | refused fault hready =>
    refine ⟨Or.inl (plainAnswer_of_refused hprepared hready), iff_of_false nofun ?_⟩
    rintro ⟨⟨t, ht⟩, hsteps, -⟩
    obtain ⟨ready, hok⟩ := exists_ready_of_build hprepared hsteps ht
    rw [hready] at hok
    cases hok
  | overloaded ready panic hready hload =>
    have hbuild := build_of_ready hready hprepared
    exact ⟨Or.inr ⟨panic, rfl⟩, iff_of_true ⟨panic, rfl⟩
      ⟨⟨ready.tree, hbuild⟩, (exists_overload_iff hbuild).mp ⟨panic, hload⟩⟩⟩
  | ended ready moves log outcome pass hready hload hrun =>
    have hbuild := build_of_ready hready hprepared
    have hanswer : PlainAnswer s request prepared.plan
        ((answer ready.live ready.mode outcome pass).mapError .fault) := by
      rcases answer_of_no_report hready hrun (no_report_plain hf hscenario hready hrun) with
        ⟨i, fault, before, after, hlog, -, hanswer⟩ | ⟨-, response, hanswer⟩
      · rw [hanswer]
        have hfault : .failed i fault ∈ log := by
          rw [hlog]
          exact mem_append_right _ mem_cons_self
        cases hrun with
        | empty hroot => cases hfault
        | ended hroot hcourse _ =>
          obtain ⟨step, b, -, name, -, rfl | rfl⟩ :=
            bindingFault_of_failed hf hscenario hprepared hplan hready hroot hcourse hfault
          · exact .notRendered step.name name
          · exact .noState name b.key
      · rw [hanswer]
        exact .response response
    refine ⟨Or.inl hanswer, iff_of_false ?_ ?_⟩
    · rintro ⟨panic, hpanic⟩
      rw [hpanic] at hanswer
      cases hanswer
    · rintro ⟨-, hmany⟩
      obtain ⟨panic, hpanic⟩ := (exists_overload_iff hbuild).mpr hmany
      rw [hload] at hpanic
      cases hpanic

/-- The page with the colours, rendered plainly: its head picks no colour, so that the list lacks
one, but nothing worse can happen. -/
theorem plain_pages_answer_colors :
    ∃ catalog, (⟨.colors, ["picker"]⟩ : ScenarioFile).catalog = .ok catalog ∧
    ∃ plan a, Answers { catalog } .colors a ∧ PlainAnswer { catalog } .colors plan a := by
  obtain ⟨catalog, hcatalog⟩ :
      ∃ catalog, (⟨.colors, ["picker"]⟩ : ScenarioFile).catalog = .ok catalog :=
    exists_ok_of_toBool (by decide +kernel)
  have hanswer := answers_render { catalog } .colors
  obtain ⟨plan, -, hplain | hpanic, hmany⟩ := plain_pages_answer hcatalog rfl rfl rfl hanswer
  · exact ⟨catalog, hcatalog, plan, _, hanswer, hplain⟩
  · obtain ⟨-, -, permits, hpermits, -⟩ := hmany.mp hpanic
    cases hpermits

/-- Whether a pass has panicked. -/
def panicked : Except Halt Response → Bool
  | .error (.panic _) => true
  | _ => false

lemma exists_of_panicked {a : Except Halt Response} (h : panicked a = true) :
    ∃ panic, a = .error (.panic panic) := by
  obtain (_ | panic) | _ := a
  · cases h
  · exact ⟨panic, rfl⟩
  · cases h

/-- A page with one component. -/
def soloPage : Page where
  scenario := "solo"
  components := .ofList [("head", .ofType "head" "panel")]

/-- The page with one component cannot be opened with more permits than there can be. -/
theorem panics_of_many_permits :
    ∃ catalog panic, (⟨soloPage, []⟩ : ScenarioFile).catalog = .ok catalog ∧
    let s : Service := { catalog, settings := { maxParallel := some 2305843009213693952 } }
    let request : Request := { scenario := "solo" }
    s.render request = .error (.panic panic) ∧ s.Answers request (.error (.panic panic)) ∧
      ∀ plan, ¬PlainAnswer s request plan (.error (.panic panic)) := by
  obtain ⟨catalog, hcatalog⟩ : ∃ catalog, (⟨soloPage, []⟩ : ScenarioFile).catalog = .ok catalog :=
    exists_ok_of_toBool (by decide +kernel)
  have hrender := of_any_toOption hcatalog (P := fun catalog =>
    panicked (render { catalog, settings := { maxParallel := some 2305843009213693952 } }
      { scenario := "solo" })) (by decide +kernel)
  obtain ⟨panic, hpanic⟩ := exists_of_panicked hrender
  have hanswer := answers_render
    { catalog, settings := { maxParallel := some 2305843009213693952 } } { scenario := "solo" }
  rw [hpanic] at hanswer
  refine ⟨catalog, panic, hcatalog, hpanic, hanswer, fun plan hplain => ?_⟩
  cases hplain

end Service

end PageRender
