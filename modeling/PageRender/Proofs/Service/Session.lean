import PageRender.Proofs.Plan.Known
import PageRender.Proofs.Service.Frame

/-!
# Sessions

A client opens a scenario and then sends back, with every interaction, the page that it has got last.
No pass of such a session changes what passes are planned by: the rendering lists, and which
components there are, of which types. What the audit of the default page has established is thus true
of every page of the session, so that planning cannot go wrong in it.
-/

namespace PageRender

open List

variable {default page live live' : Page} {names : List String}

/-- A page that has what passes are planned by from the default page of its scenario: the rendering
lists, the layout, and the components in their order with their types. -/
structure Page.Follows (default page : Page) : Prop where
  rendering : page.rendering = default.rendering
  layout : page.layout = default.layout
  keys : page.components.keys = default.components.keys
  types : ∀ name, (page.component? name).map Component.typeName =
    (default.component? name).map Component.typeName

namespace Page

lemma Follows.refl (default : Page) : Follows default default :=
  ⟨rfl, rfl, rfl, fun _ => rfl⟩

lemma Follows.syncNames (h : Follows default page) : Follows default page.syncNames where
  rendering := h.rendering
  layout := h.layout
  keys := by
    rw [← h.keys]
    exact Dict.keys_map _ _
  types name := by
    rw [← h.types name]
    simp only [Page.component?, Page.syncNames, Dict.get?_map, Option.map_map]
    rfl

/-- A page that has the components of the default page lacks none that this can add. -/
lemma Completes.eq_of_keys (h : Completes default live names live')
    (hkeys : live.components.keys = default.components.keys)
    (hthere : ∀ name ∈ names, ∃ c, live'.component? name = some c) : live' = live := by
  have hknown : ∀ name ∈ names, name ∈ live.components.keys := by
    intro name hname
    by_contra hlacking
    obtain ⟨c, hc⟩ := hthere name hname
    rw [h.component?_of_lacking hname hlacking] at hc
    rw [hkeys] at hlacking
    exact hlacking (exists_component_iff.mp ⟨c, hc⟩)
  have hcomponents : live'.components = live.components := by
    apply Dict.eq_of_get?
    · rw [h.keys, filter_eq_nil_iff.mpr, append_nil]
      intro name hname
      simpa using hknown name hname
    · intro name
      change live'.component? name = live.component? name
      rw [h.component? name]
      split
      · next hname =>
        obtain ⟨c, hc⟩ := exists_component_iff.mpr (hknown name hname)
        rw [hc]
        rfl
      · rfl
  rw [h.page_eq, hcomponents]

end Page

namespace Service

variable {s : Service} {request : Request} {scenario : Scenario} {response : Response} {key : String}
  {history : List Response} {f : Fault}

/-- A session: a series of responses for one scenario, the latest first. The first request carries no
page, and every other one the page of the response before it. -/
inductive Session (s : Service) (key : String) : List Response → Prop
  | start : Session s key []
  | next {history : List Response} {request : Request} {response : Response}
      (h : Session s key history) (hscenario : request.scenario = key)
      (hsnapshot : request.snapshot = history.head?.map Response.page)
      (hanswer : s.Answers request (.ok response)) : Session s key (response :: history)

/-- What a request runs on that carries the page of the last response, if there is one. -/
lemma follows_livePage (h : ∀ response ∈ history, Page.Follows default response.page)
    (hsnapshot : request.snapshot = history.head?.map Response.page) :
    Page.Follows default (livePage default request) := by
  unfold livePage
  split
  · next page hpage =>
    rw [hsnapshot] at hpage
    obtain ⟨last, hlast, rfl⟩ := Option.map_eq_some_iff.mp hpage
    exact (h last (mem_of_mem_head? hlast)).syncNames
  · exact .refl default

section

variable (hscenario : s.catalog.scenarios.get? request.scenario = some scenario)
  (hlive : Page.Follows scenario.page (livePage scenario.page request))

include hscenario hlive

/-- One render of a session. -/
lemma follows_of_answers (hkeeps : s.catalog.Keeps request.scenario Component.typeName)
    (h : s.Answers request (.ok response)) : Page.Follows scenario.page response.page := by
  obtain ⟨prepared, ready, moves, log, outcome, pass, hprepared, hready, -, hstart, hrun, hpage, -⟩ :=
    exists_execution_of_answers h
  obtain ⟨scenario', hscenario', -, hcompletes, hchecked⟩ := completes_of_prepare hprepared
  obtain rfl : scenario = scenario' :=
    Option.some.inj (hscenario.symm.trans (Catalog.scenario_eq_ok_iff.mp hscenario'))
  have hsame : prepared.live = livePage scenario.page request := by
    refine hcompletes.eq_of_keys hlive.keys ?_
    intro name hname
    obtain ⟨step, hstep, rfl⟩ := mem_map.mp hname
    obtain ⟨c, r, hc, -⟩ := hchecked step hstep
    exact ⟨c, hc⟩
  rw [hsame] at hstart hpage
  refine ⟨?_, ?_, ?_, ?_⟩
  · rw [hpage]
    exact hlive.rendering
  · rw [hpage]
    exact hlive.layout
  · rw [hpage, ← hlive.keys, ← hstart]
    exact keys_of_execution hready hrun
  · intro name
    rw [hpage, ← hlive.types name, Page.component?, Page.component?, ← hstart]
    exact part_of_execution Component.inherent_typeName hkeeps hready hrun name

/-- The preparations of a pass on such a page. -/
lemma prepare_eq_error (hdefault : scenario.page.WellListed)
    (htarget : ∀ event, request.target? = some event →
      event.component ∈ scenario.page.components.keys)
    (h : s.prepare request = .error f) :
    (∃ name c, scenario.page.component? name = some c ∧ f = .noRenderer request.scenario c.typeName) ∨
      ∃ name, request.only = some name ∧ f = .notPlanned name := by
  rw [prepare, Catalog.scenario_eq_ok_iff.mpr hscenario, ok_bind] at h
  dsimp only at h
  rcases Plan.ofRequest_known hdefault hlive.rendering htarget with
    ⟨plan, hplan, hknown⟩ | ⟨name, honly, hplan⟩
  · rw [hplan, ok_bind] at h
    rcases bind_eq_error_iff.mp h with haccept | ⟨live, -, hpure⟩
    · obtain ⟨step, hstep, c, hc, hr⟩ := exists_of_acceptAll_eq_error
        (fun step hstep => hlive.keys ▸ hknown step hstep) haccept
      have htype := hlive.types step.name
      rw [hc, Option.map_some, eq_comm, Option.map_eq_some_iff] at htype
      obtain ⟨d, hd, hsame⟩ := htype
      refine Or.inl ⟨step.name, d, hd, ?_⟩
      rw [hsame]
      exact Catalog.eq_noRenderer_of_renderer hscenario hr
    · cases hpure
  · rw [hplan] at h
    cases h
    exact Or.inr ⟨name, honly, rfl⟩

end

/-- All pages of a session follow the default page. -/
lemma Session.follows (hscenario : s.catalog.scenarios.get? key = some scenario)
    (hkeeps : s.catalog.Keeps key Component.typeName) (h : Session s key history) :
    ∀ response ∈ history, Page.Follows scenario.page response.page := by
  induction h with
  | start => exact fun response hresponse => absurd hresponse not_mem_nil
  | @next history request response h hkey hsnapshot hanswer ih =>
    subst hkey
    intro other hother
    rcases mem_cons.mp hother with rfl | hother
    · exact follows_of_answers hscenario (follows_livePage ih hsnapshot) hkeeps hanswer
    · exact ih other hother

/-- In a session on a scenario that has been registered, whatever events, parameters and wishes its
requests have, all responses have the rendering lists and the layout of the default page, and its
components in their order and with their types, if neither encoding nor finishing up changes types.
So the next request, if it has no target or one of these components, can be refused for lack of a
renderer only, or because a component that it asks for alone is not in the plan. -/
theorem sessions_stay_renderable (hbuilt : s.catalog.Built)
    (hscenario : s.catalog.scenarios.get? key = some scenario)
    (hkeeps : s.catalog.Keeps key Component.typeName) (h : Session s key history) :
    (∀ response ∈ history, Page.Follows scenario.page response.page) ∧
    ∀ request f, request.scenario = key → request.snapshot = history.head?.map Response.page →
      (∀ event, request.target? = some event →
        event.component ∈ scenario.page.components.keys) →
      s.prepare request = .error f →
        (∃ name c, scenario.page.component? name = some c ∧ f = .noRenderer key c.typeName) ∨
          ∃ name, request.only = some name ∧ f = .notPlanned name := by
  have hfollows := h.follows hscenario hkeeps
  refine ⟨hfollows, ?_⟩
  intro request f hkey hsnapshot htarget hprepare
  subst hkey
  exact prepare_eq_error hscenario (follows_livePage hfollows hsnapshot)
    (hbuilt.wellListed hscenario) htarget hprepare

/-- The request for an event on a component of the colours, with the page of a response. -/
def eventRequest (component : String) (response : Response) : Request where
  scenario := "colors"
  event := some (.refreshing component)
  snapshot := some response.page

lemma built_colors : Service.colors.catalog.Built := by
  obtain ⟨catalog, hcatalog⟩ :
      ∃ catalog, kept (Catalog.register {} ((Scenario.ofPage .colors).withKind .picker)) =
        .ok catalog :=
    exists_ok_of_toBool (by decide +kernel)
  rw [kept_eq_ok_iff] at hcatalog
  have hbuilt := Catalog.Built.registered .empty hcatalog
  obtain ⟨-, -, rfl⟩ := Catalog.register_eq_ok_iff.mp hcatalog
  exact hbuilt

/-- The colours are opened, and then there is an event on the head. The page that comes back has the
three components, and an event on the list can be refused for lack of a renderer only. -/
theorem sessions_stay_renderable_colors :
    ∃ first second, Session Service.colors "colors" [second, first] ∧
      second.page.components.keys = ["head", "list", "foot"] ∧
      ∀ f, Service.colors.prepare (eventRequest "list" second) = .error f →
        ∃ typeName, f = .noRenderer "colors" typeName := by
  have hrenders : (Service.colors.render .colors).toOption.any (fun first =>
      (Service.colors.render (eventRequest "head" first)).toBool) = true := by decide +kernel
  obtain ⟨first, hfirst, hrender⟩ := exists_of_any_toOption hrenders
  obtain ⟨second, hsecond⟩ := exists_ok_of_toBool hrender
  have hanswer : Service.colors.Answers .colors (.ok first) := by
    rw [← hfirst]
    exact answers_render _ _
  have hanswer' : Service.colors.Answers (eventRequest "head" first) (.ok second) := by
    rw [← hsecond]
    exact answers_render _ _
  have hsession : Session Service.colors "colors" [second, first] :=
    .next (.next .start rfl rfl hanswer) rfl rfl hanswer'
  have hscenario : Service.colors.catalog.scenarios.get? "colors" =
      some ((Scenario.ofPage .colors).withKind .picker) := rfl
  obtain ⟨hfollows, hprepare⟩ := sessions_stay_renderable built_colors hscenario
    (keeps_colors Component.inherent_typeName) hsession
  refine ⟨first, second, hsession, ?_, ?_⟩
  · rw [(hfollows second mem_cons_self).keys]
    decide +kernel
  · intro f hf
    have htarget : ∀ event, (eventRequest "list" second).target? = some event →
        event.component ∈ ((Scenario.ofPage .colors).withKind .picker).page.components.keys := by
      intro event hevent
      cases hevent
      decide +kernel
    rcases hprepare (eventRequest "list" second) f rfl rfl htarget hf with
      ⟨name, c, -, hnone⟩ | ⟨name, honly, -⟩
    · exact ⟨c.typeName, hnone⟩
    · cases honly

end Service

end PageRender
