import PageRender.Kind.Plain
import PageRender.Proofs.Service.Order

/-!
# Reports that an earlier pass has left

A page may bring along the business fault of an earlier pass. It has no influence on the pass that
runs on the page: nothing is read from the blackboard before the report is taken away, and what is
then left of the blackboard is the same whatever was reported, and wherever the report stood.
-/

namespace PageRender

open List

namespace Page

variable {p q : Page} {board : Option Blackboard}

/-- What is on the blackboard of a page, in order, apart from the report of a business fault. -/
def shared (p : Page) : List (String × Value) :=
  match p.blackboard with
  | some board => board.entries.entries.filter fun entry => entry.1 ≠ "_error_"
  | none => []

/-- Two pages that are the same, apart from the reports of business faults on their blackboards. -/
structure SameButFault (p q : Page) : Prop where
  page_eq : q = { p with blackboard := q.blackboard }
  shared_eq : q.shared = p.shared

/-- The page with another blackboard. -/
def withBlackboard (p : Page) (board : Option Blackboard) : Page :=
  { p with blackboard := board }

lemma component?_withBlackboard (name : String) :
    (p.withBlackboard board).component? name = p.component? name := rfl

lemma entries_clearFault (p : Page) :
    (p.blackboard.getD .empty).clearFault.entries.entries = p.shared := by
  rw [shared]
  cases p.blackboard <;> rfl

lemma SameButFault.clearFault_eq (h : p.SameButFault q) :
    (q.blackboard.getD .empty).clearFault = (p.blackboard.getD .empty).clearFault := by
  have hentries : (q.blackboard.getD .empty).clearFault.entries.entries =
      (p.blackboard.getD .empty).clearFault.entries.entries := by
    rw [entries_clearFault, entries_clearFault, h.shared_eq]
  generalize (q.blackboard.getD .empty).clearFault = b at hentries ⊢
  generalize (p.blackboard.getD .empty).clearFault = c at hentries ⊢
  obtain ⟨⟨_, _⟩⟩ := b
  obtain ⟨⟨_, _⟩⟩ := c
  cases hentries
  rfl

end Page

namespace Service

variable {s s' : Service} {request request' : Request} {default live : Page} {catalog : Catalog}
  {board : Option Blackboard} {key : String} {ready : Ready} {prepared : Prepared}
  {moves : List Move} {a a' : Except Halt Response} {tree : RenderTree} {scenario : Scenario}

/-- The same service and request, but that the page on which the pass runs has another report of a
business fault, or none: the snapshot, or the default page if there is no snapshot. -/
inductive Restated (s : Service) (request : Request) : Service → Request → Prop
  | snapshot (p q : Page) (hsnapshot : request.snapshot = some p) (hpq : p.SameButFault q) :
      Restated s request s { request with snapshot := some q }
  | default (scenario : Scenario) (q : Page) (hsnapshot : request.snapshot = none)
      (hscenario : s.catalog.scenarios.get? request.scenario = some scenario)
      (hpq : scenario.page.SameButFault q) :
      Restated s request
        { s with catalog := { s.catalog with
          scenarios := s.catalog.scenarios.insert request.scenario { scenario with page := q } } }
        request

/-! ### Preparing -/

/-- Planning does not look at blackboards. -/
lemma ofRequest_withBlackboard (default live : Page) (board board' : Option Blackboard)
    {snapshot : Option Page} (hsnapshot : snapshot.isSome = request.snapshot.isSome) :
    Plan.ofRequest (default.withBlackboard board) { request with snapshot }
      (live.withBlackboard board') = Plan.ofRequest default request live := by
  have hwhole : Plan.whole (default.withBlackboard board) { request with snapshot }
      (live.withBlackboard board') = Plan.whole default request live := by
    unfold Plan.whole Request.target?
    cases snapshot <;> cases hsome : request.snapshot <;> simp [hsome] at hsnapshot
    · rfl
    · cases request.event.filter Event.hasTarget <;> rfl
  rw [Plan.ofRequest, hwhole]
  rfl

lemma accept_withBlackboard {catalog' : Catalog} (board board' : Option Blackboard)
    (hrenderer : ∀ typeName, catalog'.renderer key typeName = catalog.renderer key typeName)
    (live : Page) (step : Step) :
    accept catalog' key (default.withBlackboard board) (live.withBlackboard board') step =
      (accept catalog key default live step).map (·.withBlackboard board') := by
  have hrestore :
      restore key (default.withBlackboard board) (live.withBlackboard board') step.name =
        (restore key default live step.name).map (·.withBlackboard board') := by
    have hcomponents : (live.withBlackboard board').components.contains step.name =
        live.components.contains step.name := rfl
    rw [restore, restore, hcomponents, Page.component?_withBlackboard]
    split
    · rfl
    · cases default.component? step.name <;> rfl
  rw [accept, accept, hrestore]
  cases restore key default live step.name with
  | error f => rfl
  | ok restored =>
    have hmap : Except.map (·.withBlackboard board') (.ok restored : Except Fault Page) =
        .ok (restored.withBlackboard board') := rfl
    simp only [hmap, ok_bind, Page.component?_withBlackboard]
    cases restored.component? step.name with
    | none => rfl
    | some c =>
      simp only [hrenderer]
      cases catalog.renderer key c.typeName <;> rfl

/-- A prepared pass whose page has another blackboard. -/
def Prepared.withBlackboard (p : Prepared) (board : Option Blackboard) : Prepared :=
  { p with live := p.live.withBlackboard board }

/-- Preparing comes to the same, on the other blackboard. -/
lemma prepare_withBlackboard {catalog' : Catalog} {snapshot : Option Page}
    (board : Option Blackboard) (hsnapshot : snapshot.isSome = request.snapshot.isSome)
    (hrenderer : ∀ typeName, catalog'.renderer request.scenario typeName =
      s.catalog.renderer request.scenario typeName)
    (hnone : ∀ f, s.catalog.scenario request.scenario = .error f →
      catalog'.scenario request.scenario = .error f)
    (hsome : ∀ scenario, s.catalog.scenario request.scenario = .ok scenario →
      ∃ scenario' board', catalog'.scenario request.scenario = .ok scenario' ∧
        scenario'.page = scenario.page.withBlackboard board' ∧
        livePage scenario'.page { request with snapshot } =
          (livePage scenario.page request).withBlackboard board) :
    prepare { s with catalog := catalog' } { request with snapshot } =
      (s.prepare request).map (Prepared.withBlackboard · board) := by
  cases hscenario : s.catalog.scenario request.scenario with
  | error f =>
    rw [prepare, prepare, hscenario, hnone f hscenario]
    rfl
  | ok scenario =>
    obtain ⟨scenario', board', hscenario', hpage, hlive⟩ := hsome scenario hscenario
    rw [prepare, prepare, hscenario, hscenario', ok_bind, ok_bind]
    dsimp only
    rw [hlive, hpage, ofRequest_withBlackboard _ _ _ _ hsnapshot]
    cases Plan.ofRequest scenario.page request (livePage scenario.page request) with
    | error f => rfl
    | ok plan =>
      rw [ok_bind, ok_bind, foldlM_comm (accept_withBlackboard board' board hrenderer)]
      cases plan.steps.foldlM (accept s.catalog request.scenario scenario.page)
        (livePage scenario.page request) <;> rfl

lemma blackboard_of_prepare (hscenario : s.catalog.scenario request.scenario = .ok scenario)
    (h : s.prepare request = .ok prepared) :
    prepared.live.blackboard = (livePage scenario.page request).blackboard := by
  obtain ⟨scenario', hfound, -, hcompletes, -⟩ := completes_of_prepare h
  obtain rfl : scenario = scenario' := Except.ok.inj (hscenario.symm.trans hfound)
  rw [hcompletes.page_eq]

/-- A pass that is ready, with another blackboard on its page. -/
def Ready.withBlackboard (r : Ready) (board : Option Blackboard) : Ready :=
  { r with live := r.live.withBlackboard board }

lemma Ready.tree_withBlackboard (r : Ready) (board : Option Blackboard) :
    (r.withBlackboard board).tree = r.tree := rfl

/-- Without its report, the blackboard at the beginning of a pass is the same. -/
lemma ready_withBlackboard (hsettings : s'.settings = s.settings)
    (hkey : request'.scenario = request.scenario)
    (hprepare : s'.prepare request' = (s.prepare request).map (Prepared.withBlackboard · board))
    (hboard : ∀ prepared, s.prepare request = .ok prepared →
      (board.getD .empty).clearFault = (prepared.live.blackboard.getD .empty).clearFault) :
    s'.ready request' = (s.ready request).map (Ready.withBlackboard · board) := by
  cases h : s.prepare request with
  | error f =>
    rw [h] at hprepare
    rw [ready_of_prepare_error h, ready_of_prepare_error hprepare]
    rfl
  | ok prepared =>
    rw [h] at hprepare
    rw [ready_of_prepare h, ready_of_prepare hprepare, hsettings, hkey]
    change (if prepared.plan.steps.isEmpty && s.settings.rejectEmptyPlan then _ else
      (Prepared.tree prepared).map _) = _
    split
    · rfl
    · cases Prepared.tree prepared with
      | error f => rfl
      | ok tree =>
        simp only [Except.map, Prepared.begin, Prepared.withBlackboard, Ready.withBlackboard,
          Page.withBlackboard, hboard prepared h]

/-- What is asked of the catalog in the course of a pass are renderers only. -/
lemma runner_withCatalog {catalog' : Catalog} {snapshot : Option Page}
    (hrenderer : ∀ typeName, catalog'.renderer request.scenario typeName =
      s.catalog.renderer request.scenario typeName) (tree : RenderTree) :
    runner { s with catalog := catalog' } { request with snapshot } tree =
      s.runner request tree := by
  have hjob (step : Step) (p : Pass) :
      Pass.jobOf (setting { s with catalog := catalog' } { request with snapshot }) p step =
        Pass.jobOf (s.setting request) p step := by
    rw [Pass.jobOf, Pass.jobOf]
    change Pass.copyOf (s.setting request) p step >>= _ = _
    cases Pass.copyOf (s.setting request) p step with
    | error f => rfl
    | ok c =>
      rw [ok_bind, ok_bind]
      change catalog'.renderer request.scenario c.typeName >>= _ = _
      rw [hrenderer]
      rfl
  have hstart (node : Node) : Pass.startStep
      (setting { s with catalog := catalog' } { request with snapshot }) node.step =
        Pass.startStep (s.setting request) node.step := by
    funext p
    rw [Pass.startStep, Pass.startStep, hjob]
  rw [runner, runner, funext hstart]
  rfl

/-! ### Restated passes -/

lemma scenario_insert (scenario : Scenario) :
    ({ catalog with scenarios := catalog.scenarios.insert key scenario } : Catalog).scenario key =
      .ok scenario := by
  rw [Catalog.scenario_eq_ok_iff, Dict.get?_insert, if_pos rfl]

lemma renderer_insert (hscenario : catalog.scenarios.get? key = some scenario) (q : Page)
    (typeName : String) :
    ({ catalog with scenarios := catalog.scenarios.insert key { scenario with page := q } } :
      Catalog).renderer key typeName = catalog.renderer key typeName := by
  rw [Catalog.renderer, Catalog.renderer, scenario_insert, Catalog.scenario_eq_ok_iff.mpr hscenario]
  rfl

/-- What is begun with is the same, apart from the blackboard of the page, which no answer shows. -/
lemma ready_of_restated (h : Restated s request s' request') : ∃ board,
    s'.ready request' = (s.ready request).map (Ready.withBlackboard · board) := by
  cases h with
  | snapshot p q hsnapshot hpq =>
    have hlive (default : Page) : livePage default request = p.syncNames := by
      rw [livePage, hsnapshot]
    refine ⟨q.blackboard, ?_⟩
    apply ready_withBlackboard
    · rfl
    · rfl
    · refine prepare_withBlackboard q.blackboard ?_ (fun _ => rfl) (fun _ h => h) ?_
      · rw [hsnapshot]
        rfl
      · intro scenario hscenario
        refine ⟨scenario, scenario.page.blackboard, hscenario, rfl, ?_⟩
        rw [hlive]
        exact congrArg Page.syncNames hpq.page_eq
    · intro prepared hprepared
      obtain ⟨scenario, hscenario, -⟩ := completes_of_prepare hprepared
      rw [blackboard_of_prepare hscenario hprepared, hlive]
      exact hpq.clearFault_eq
  | default scenario q hsnapshot hscenario hpq =>
    have hfound := Catalog.scenario_eq_ok_iff.mpr hscenario
    have hlive (default : Page) : livePage default request = default := by
      rw [livePage, hsnapshot]
    refine ⟨q.blackboard, ?_⟩
    apply ready_withBlackboard
    · rfl
    · rfl
    · refine prepare_withBlackboard q.blackboard rfl (renderer_insert hscenario q) ?_ ?_
      · intro f hnone
        rw [hfound] at hnone
        cases hnone
      · intro other hother
        obtain rfl : scenario = other := Except.ok.inj (hfound.symm.trans hother)
        refine ⟨{ scenario with page := q }, q.blackboard, scenario_insert _, hpq.page_eq, ?_⟩
        rw [hlive, hlive]
        exact hpq.page_eq
    · intro prepared hprepared
      rw [blackboard_of_prepare hfound hprepared, hlive]
      exact hpq.clearFault_eq

lemma runner_of_restated (h : Restated s request s' request') (tree : RenderTree) :
    s'.runner request' tree = s.runner request tree := by
  cases h with
  | snapshot p q hsnapshot hpq => exact runner_withCatalog (fun _ => rfl) tree
  | default scenario q hsnapshot hscenario hpq =>
    exact runner_withCatalog (renderer_insert hscenario q) tree

lemma Restated.answersBy_iff (h : Restated s request s' request') :
    s'.AnswersBy request' moves a ↔ s.AnswersBy request moves a := by
  obtain ⟨board, hready⟩ := ready_of_restated h
  have hrunner := runner_of_restated h
  constructor
  · intro ha
    cases ha with
    | refused f hnot =>
      rw [hready, map_eq_error_iff] at hnot
      exact .refused f hnot
    | overloaded ready' p hready' hload =>
      rw [hready] at hready'
      obtain ⟨ready, h, rfl⟩ := map_eq_ok_iff.mp hready'
      rw [hrunner] at hload
      exact .overloaded ready p h hload
    | ended ready' log outcome pass hready' hload hrun =>
      rw [hready] at hready'
      obtain ⟨ready, h, rfl⟩ := map_eq_ok_iff.mp hready'
      rw [hrunner] at hload hrun
      exact .ended ready log outcome pass h hload hrun
  · intro ha
    cases ha with
    | refused f hnot =>
      rw [hnot] at hready
      exact .refused f hready
    | overloaded ready p h hload =>
      rw [h] at hready
      rw [← hrunner] at hload
      exact .overloaded _ p hready hload
    | ended ready log outcome pass h hload hrun =>
      rw [h] at hready
      rw [← hrunner] at hload hrun
      exact .ended (ready.withBlackboard board) log outcome pass hready hload hrun

/-- An answer shows the blackboard that the pass has left behind. -/
lemma answer_withBlackboard {mode : Mode} {outcome : Except Fault (List Nat)} {pass : Pass} :
    answer (live.withBlackboard board) mode outcome pass = answer live mode outcome pass := by
  rw [answer, answer]
  rfl

lemma Restated.render_eq (h : Restated s request s' request') :
    s'.render request' = s.render request := by
  obtain ⟨board, hready⟩ := ready_of_restated h
  have hrunner := runner_of_restated h
  rw [render, render, hready]
  cases s.ready request with
  | error f => simp only [Except.map, Except.mapError, error_bind]
  | ok ready =>
    have hrun : s'.run request' (ready.withBlackboard board) = s.run request ready := by
      simp only [run, hrunner, Ready.withBlackboard, answer_withBlackboard]
    simp only [Except.map, Except.mapError, ok_bind, hrunner, hrun]
    rw [Ready.tree_withBlackboard]

/-- A business fault that the page of a pass has brought along has no influence on the pass, and
neither has its place on the blackboard, whatever the components do: with another report on the
page, or with none, the service gives the same answer, and may give the same ones. It does so in
every single order in which the nodes may be run, where the order settles the answer. -/
theorem stale_fault_has_no_influence (h : Restated s request s' request') :
    s'.render request' = s.render request ∧
    (∀ a, s'.Answers request' a ↔ s.Answers request a) ∧
    ∀ moves, (∀ a, s'.AnswersBy request' moves a ↔ s.AnswersBy request moves a) ∧
      ∀ a a', s.AnswersBy request moves a → s'.AnswersBy request' moves a' → a = a' := by
  refine ⟨h.render_eq, ?_, ?_⟩
  · intro a
    simp only [answers_iff, h.answersBy_iff]
  · intro moves
    refine ⟨fun a => h.answersBy_iff, ?_⟩
    intro a a' ha ha'
    exact ha.unique (h.answersBy_iff.mp ha')

end Service

/-- The kind of components that write down which keys they see on the blackboard. -/
def Kind.reader : Kind Fields :=
  { Kind.stateOnly "reader" with
    onOpen := fun _ => do
      let bench ← get
      Work.change (·.insert "seen" (.ofString (String.join bench.blackboard.entries.keys))) }

/-- A page with a component that reads the blackboard. -/
def Page.reading (entries : List (String × Value)) : Page where
  scenario := "reading"
  components := .ofList [("list", .ofType "list" "reader")]
  blackboard := some ⟨.ofList entries⟩

def Service.reading : Service where
  catalog := {
    scenarios := .ofList [("reading", (Scenario.ofPage (.reading [])).withKind .reader)] }

def Request.reading (entries : List (String × Value)) : Request where
  scenario := "reading"
  snapshot := some (.reading entries)

namespace Service

/-- Of a page that brings along a refusal and one that brings along nothing the component sees the
same, and the response is the same. -/
theorem stale_fault_has_no_influence_reader :
    ∃ response, Service.reading.render
        (.reading [("_error_", .ofString "refused"), ("mark", .null)]) = .ok response ∧
      Service.reading.render (.reading [("mark", .null), ("_error_", .null)]) = .ok response ∧
      ((response.page.component? "list").bind (·.stateValue? "seen")).bind Value.string? =
        some "mark" := by
  have hrestated : Restated .reading
      (.reading [("_error_", .ofString "refused"), ("mark", .null)]) .reading
      (.reading [("mark", .null), ("_error_", .null)]) :=
    .snapshot _ _ rfl ⟨rfl, rfl⟩
  obtain ⟨hrender, -⟩ := stale_fault_has_no_influence hrestated
  obtain ⟨response, hresponse, hseen⟩ := exists_of_any_toOption
    (x := Service.reading.render (.reading [("mark", .null), ("_error_", .null)]))
    (P := fun response => ((response.page.component? "list").bind (·.stateValue? "seen")).bind
      Value.string? == some "mark") (by decide +kernel)
  rw [← hrender]
  exact ⟨response, hresponse, hresponse, beq_iff_eq.mp hseen⟩

end Service

end PageRender
