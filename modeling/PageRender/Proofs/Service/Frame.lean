import PageRender.Proofs.Lifecycle.Inherent
import PageRender.Proofs.Service.Atomicity

/-!
# What a pass leaves of a page

A pass replaces the components that it renders, and writes on the blackboard. Everything else of the
live page comes back as it was, with the components that had to be restored for the plan at the end.
-/

namespace PageRender

open List

variable {s : Service} {request : Request} {t : RenderTree} {start p : Pass} {log : List LogEntry}
  {d : Dispatch Pass Pass.Job} {moves : List Move} {root : Nat} {outcome : Except Fault (List Nat)}
  {name : String}

section

variable {α : Type} {part : Component → α}

lemma Pass.Makes.part_eq {setting : Setting} {step : Step} {r : Renderer} {c c' : Component}
    {report : Report} (hpart : Component.Inherent part)
    (hkeeps : setting.catalog.Keeps setting.scenario part)
    (h : Pass.Makes setting step r c c' report) : part c' = part c := by
  obtain ⟨resolved, board, board', -, hrenderer, hrender⟩ := h
  calc part c'
    _ = part (c.fill resolved) := Renderer.Keeps.render (hkeeps hrenderer) hrender
    _ = part c := hpart.fill c resolved

/-- No render changes a part of the components that renderers keep. -/
lemma Beginning.part_of_course (hb : Beginning t root start) (hpart : Component.Inherent part)
    (hkeeps : s.catalog.Keeps request.scenario part)
    (h : Dispatch.Course (s.runner request t) root start moves log d) (name : String) :
    (d.world.components.get? name).map part = (start.components.get? name).map part := by
  cases Origin.of_course hb h name with
  | untouched hsame => rw [hsame]
  | made i step r c c' report hlog hstep hname hstart hmakes hcomponent hreport =>
    rw [hcomponent, hstart, Option.map_some, Option.map_some, hmakes.part_eq hpart hkeeps]

end

/-- What holds of a pass at its start and in every state that its renders may lead to holds at its
end. -/
lemma Dispatch.Execution.world_holds {r : Runner Pass Pass.Job} {P : Pass → Prop} (hstart : P start)
    (hcourse : ∀ {root moves log d}, r.tree.root? = some root →
      Dispatch.Course r root start moves log d → P d.world)
    (h : Dispatch.Execution r start moves log outcome p) : P p := by
  cases h with
  | empty _ => exact hstart
  | ended hroot h _ => exact hcourse hroot h

namespace Service

variable {ready : Ready} {prepared : Prepared} {response : Response}

/-- A response comes of a pass that was ready and has come to its end. -/
lemma exists_execution_of_answers (h : s.Answers request (.ok response)) :
    ∃ prepared ready moves log outcome pass, s.prepare request = .ok prepared ∧
      s.ready request = .ok ready ∧ ready.live = prepared.live ∧
      ready.pass.components = prepared.live.components ∧
      Dispatch.Execution (s.runner request ready.tree) ready.pass moves log outcome pass ∧
      response.page = { prepared.live with
        components := pass.components, blackboard := some pass.blackboard } ∧
      response.reports = pass.reports := by
  generalize hanswer : (Except.ok response : Except Halt Response) = answer at h
  cases h with
  | refused f hready => cases hanswer
  | overloaded ready p hready hload => cases hanswer
  | ended ready moves log outcome pass hready hload hrun =>
    obtain ⟨prepared, hprepared, -, hbegin⟩ := exists_prepared_of_ready hready
    obtain ⟨-, completed, -, rfl⟩ := answer_eq_ok_iff.mp (mapError_eq_ok_iff.mp hanswer.symm)
    refine ⟨prepared, ready, moves, log, outcome, pass, hprepared, hready, ?_, ?_, hrun, ?_, rfl⟩ <;>
      rw [hbegin] <;> rfl

/-- The components of a pass that was ready and has come to its end. -/
lemma keys_of_execution (hready : s.ready request = .ok ready)
    (h : Dispatch.Execution (s.runner request ready.tree) ready.pass moves log outcome p) :
    p.components.keys = ready.pass.components.keys := by
  refine h.world_holds (P := fun p => p.components.keys = ready.pass.components.keys) rfl ?_
  intro root moves log d hroot hcourse
  exact ((beginning_of_ready hready hroot).ledger hcourse).keys

lemma untouched_of_execution (hready : s.ready request = .ok ready)
    (hprepared : s.prepare request = .ok prepared) (hname : name ∉ prepared.plan.names)
    (h : Dispatch.Execution (s.runner request ready.tree) ready.pass moves log outcome p) :
    p.components.get? name = ready.pass.components.get? name := by
  refine h.world_holds
    (P := fun p => p.components.get? name = ready.pass.components.get? name) rfl ?_
  intro root moves log d hroot hcourse
  refine (beginning_of_ready hready hroot).untouched_of_unplanned hcourse ?_
  intro i hi hnode
  have hnth := RenderTree.getElem?_names_of_build (build_of_ready hready hprepared) hi
  rw [hnode] at hnth
  exact hname (mem_of_getElem? hnth)

lemma part_of_execution {α : Type} {part : Component → α} (hpart : Component.Inherent part)
    (hkeeps : s.catalog.Keeps request.scenario part) (hready : s.ready request = .ok ready)
    (h : Dispatch.Execution (s.runner request ready.tree) ready.pass moves log outcome p)
    (name : String) :
    (p.components.get? name).map part = (ready.pass.components.get? name).map part := by
  refine h.world_holds (P := fun p => (p.components.get? name).map part =
    (ready.pass.components.get? name).map part) rfl ?_
  intro root moves log d hroot hcourse
  exact (beginning_of_ready hready hroot).part_of_course hpart hkeeps hcourse name

/-- Components bear their names if others under the same keys do that have the same names. -/
lemma named_of_map_name {components components' : Dict Component}
    (h : ∀ name, (components'.get? name).map Component.name = (components.get? name).map Component.name)
    (hnamed : Named components) : Named components' := by
  intro name c hc
  have hname := h name
  rw [hc] at hname
  obtain ⟨c', hc', hsame⟩ := Option.map_eq_some_iff.mp hname.symm
  rw [← hsame]
  exact hnamed name c' hc'

/-- Whatever the catalog, the request and the order of the renders: the page of a response has the
version, the scenario, the layout and the rendering lists of the live page. Its components are those
of the live page in their order, then the planned ones that this lacked, in the order of the plan,
which the pass has begun with as the default page has them. A component that is not planned is as it
was. There is a blackboard. And if neither encoding nor finishing up changes names, every component
bears the name under which it is kept. -/
theorem page_of_answers (h : s.Answers request (.ok response)) :
    ∃ scenario prepared, s.catalog.scenario request.scenario = .ok scenario ∧
      s.prepare request = .ok prepared ∧
      let live := livePage scenario.page request
      Plan.ofRequest scenario.page request live = .ok prepared.plan ∧
      response.page.version = live.version ∧ response.page.scenario = live.scenario ∧
      response.page.layout = live.layout ∧ response.page.rendering = live.rendering ∧
      response.page.components.keys = live.components.keys ++
        prepared.plan.names.filter (fun name => name ∉ live.components.keys) ∧
      (∀ name ∈ prepared.plan.names, name ∉ live.components.keys → ∃ c,
        scenario.page.component? name = some c ∧ prepared.live.component? name = some c) ∧
      (∀ name, name ∉ prepared.plan.names →
        response.page.component? name = live.component? name) ∧
      response.page.blackboard.isSome = true ∧
      (s.catalog.FromPages → s.catalog.Keeps request.scenario Component.name →
        Named response.page.components) := by
  obtain ⟨prepared, ready, moves, log, outcome, pass, hprepared, hready, -, hstart, hrun, hpage, -⟩ :=
    exists_execution_of_answers h
  obtain ⟨scenario, hscenario, hplan, hcompletes, hchecked⟩ := completes_of_prepare hprepared
  have hlive := hcompletes.page_eq
  refine ⟨scenario, prepared, hscenario, hprepared, hplan, ?_, ?_, ?_, ?_, ?_, ?_, ?_, ?_, ?_⟩
  · rw [hpage, hlive]
  · rw [hpage, hlive]
  · rw [hpage, hlive]
  · rw [hpage, hlive]
  · rw [hpage, ← hcompletes.keys, ← hstart]
    exact keys_of_execution hready hrun
  · intro name hname hlacking
    obtain ⟨step, hstep, rfl⟩ := mem_map.mp hname
    obtain ⟨c, r, hc, -⟩ := hchecked step hstep
    exact ⟨c, (hcompletes.component?_of_lacking hname hlacking).symm.trans hc, hc⟩
  · intro name hname
    rw [← hcompletes.component?_of_not_mem hname, hpage, Page.component?, Page.component?, ← hstart]
    exact untouched_of_execution hready hprepared hname hrun
  · rw [hpage]
    rfl
  · intro hpages hkeeps
    rw [hpage]
    refine named_of_map_name ?_ (sound_of_prepare hpages hprepared).named
    rw [← hstart]
    exact part_of_execution Component.inherent_name hkeeps hready hrun

/-- A page of the colours, sent back without its list and its foot, but with a note that its
scenario does not have. -/
def incompleteRequest : Request where
  scenario := "colors"
  snapshot := some { Page.colors with
    components := .ofList [("note", .ofType "memo" "text"), ("head", .ofType "" "picker")] }

lemma keeps_picker {α : Type} {part : Component → α} (hpart : Component.Inherent part) :
    Kind.picker.Keeps part where
  encode := by
    intro model c c' hencode
    cases hencode
    exact hpart.modifyState c fun _ => model
  finish := by
    intro context bench bench' hfinish
    cases hfinish
    rfl

lemma keeps_colors {α : Type} {part : Component → α} (hpart : Component.Inherent part) :
    Service.colors.catalog.Keeps "colors" part := by
  refine Catalog.keeps_of_renderers rfl ?_
  intro scenario hscenario typeName r hr
  cases hscenario
  rw [Scenario.withKind, Scenario.withRenderer, Dict.get?_insert] at hr
  split at hr
  · cases hr
    exact (keeps_picker hpart).renderer hpart
  · cases hr

lemma fromPages_colors : Service.colors.catalog.FromPages := by
  intro key scenario hscenario
  unfold Service.colors at hscenario
  rw [Dict.ofList, Dict.insertAll, foldl_cons, foldl_nil, Dict.get?_insert] at hscenario
  split at hscenario
  · cases hscenario
    exact ⟨Page.colors, rfl⟩
  · cases hscenario

/-- The page that answers this request: the note is still there, under the name of its key, and the
list and the foot are back. -/
theorem page_of_answers_incomplete :
    ∃ response, Service.colors.render incompleteRequest = .ok response ∧
      response.page.components.keys = ["note", "head", "list", "foot"] ∧
      (response.page.component? "note").map Component.typeName = some "text" ∧
      Named response.page.components := by
  obtain ⟨response, hresponse⟩ : ∃ response, Service.colors.render incompleteRequest = .ok response :=
    exists_ok_of_toBool (by decide +kernel)
  have hanswers := answers_render Service.colors incompleteRequest
  rw [hresponse] at hanswers
  obtain ⟨scenario, prepared, hscenario, hprepared, -, -, -, -, -, hkeys, -, hunplanned, -, hnamed⟩ :=
    page_of_answers hanswers
  cases hscenario
  have hnames := of_any_toOption hprepared
    (P := fun prepared => prepared.plan.names == ["head", "list", "foot"]) (by decide +kernel)
  rw [beq_iff_eq.mp hnames] at hkeys hunplanned
  refine ⟨response, hresponse, ?_, ?_, hnamed fromPages_colors (keeps_colors Component.inherent_name)⟩
  · rw [hkeys]
    decide +kernel
  · rw [hunplanned "note" (by decide)]
    decide +kernel

end Service

end PageRender
