import PageRender.Kind.Plain
import PageRender.Proofs.Service.Answer

/-!
# The history of a catalog

What a catalog holds once scenarios have been registered and renderers shared, in any order and
whether or not the scenarios were accepted. It can be read off the calls: for a key the first
declaration that the audit accepts, and for a type the last renderer that this declaration binds to
it, else the last one that has been shared.
-/

namespace PageRender

open List

/-- A scenario as it is declared: by a page, under a key that may be another than the page's own,
with renderers that are bound one after the other. -/
structure Declaration where
  page : Page
  key : String := page.scenario
  renderers : List Renderer := []

/-- The scenario of a declaration. -/
def Declaration.scenario (d : Declaration) : Scenario :=
  { d.renderers.foldl Scenario.withRenderer (.ofPage d.page) with key := d.key }

/-- A call that may change a catalog. -/
inductive Registration
  | scenario (d : Declaration)
  | shared (r : Renderer)

namespace Registration

/-- The scenario that a call declares. -/
def declaration? : Registration → Option Declaration
  | scenario d => some d
  | shared _ => none

/-- The renderer that a call shares. -/
def renderer? : Registration → Option Renderer
  | scenario _ => none
  | shared r => some r

end Registration

/-- The first declaration for a key whose page an audit accepts. -/
def Audit.firstAccepted? (a : Audit) (key : String) (history : List Registration) :
    Option Declaration :=
  (history.filterMap Registration.declaration?).find? fun d =>
    d.key = key && a.accepts d.page.syncNames

namespace Catalog

/-- Make a call. -/
def perform (c : Catalog) : Registration → Except Fault Unit × Catalog
  | .scenario d => c.register d.scenario
  | .shared r => (.ok (), c.share r)

/-- The catalog after a call, whether or not it has failed. -/
def next (c : Catalog) (call : Registration) : Catalog :=
  (c.perform call).2

/-- The catalog after some calls. -/
def after (c : Catalog) (history : List Registration) : Catalog :=
  history.foldl next c

end Catalog

namespace Declaration

variable (d : Declaration)

lemma page_scenario : d.scenario.page = d.page.syncNames :=
  Scenario.page_withRenderers _ _

lemma get?_renderers_scenario (typeName : String) :
    d.scenario.renderers.get? typeName = Renderer.lastFor? typeName d.renderers :=
  (Scenario.renderers_withRenderers _ _ typeName).trans Option.or_none

end Declaration

/-! ### Declarations of a history -/

lemma Registration.mem_declarations_iff {d : Declaration} {history : List Registration} :
    d ∈ history.filterMap declaration? ↔ .scenario d ∈ history := by
  rw [mem_filterMap]
  constructor
  · rintro ⟨call | r, hcall, hd⟩
    · cases hd
      exact hcall
    · cases hd
  · intro hcall
    exact ⟨.scenario d, hcall, rfl⟩

namespace Audit

variable {a : Audit} {key : String} {d : Declaration} {history : List Registration}

/-- A call counts before those that come after it. -/
lemma firstAccepted?_cons (call : Registration) (history : List Registration) :
    a.firstAccepted? key (call :: history) =
      (a.firstAccepted? key [call]).or (a.firstAccepted? key history) := by
  rw [firstAccepted?, ← singleton_append, filterMap_append, find?_append]
  rfl

lemma firstAccepted?_eq_some (h : a.firstAccepted? key history = some d) :
    d.key = key ∧ a.accepts d.page.syncNames = true := by
  simpa using find?_some h

lemma isSome_firstAccepted?_iff : (a.firstAccepted? key history).isSome = true ↔
    ∃ d, .scenario d ∈ history ∧ d.key = key ∧ a.accepts d.page.syncNames = true := by
  simp only [firstAccepted?, find?_isSome, Registration.mem_declarations_iff, Bool.and_eq_true,
    decide_eq_true_eq]

end Audit

namespace Catalog

variable {c c' : Catalog} {a : Audit} {d : Declaration} {call : Registration}
  {history : List Registration} {key typeName : String} {scenario : Scenario} {fault : Fault}

/-! ### One call -/

lemma perform_scenario_eq_ok_iff : c.perform (.scenario d) = (.ok (), c') ↔
    d.key ∉ c.keys ∧ c.audit.accepts d.page.syncNames = true ∧
      c' = { c with scenarios := c.scenarios.insert d.key d.scenario } := by
  rw [perform, register_eq_ok_iff, d.page_scenario]
  rfl

/-- Sharing does not fail, and registering does so for a key that is taken or for a page that is not
accepted. A call that fails leaves the catalog as it is. -/
lemma perform_eq_error_iff : c.perform call = (.error fault, c') ↔ (∃ d, call = .scenario d ∧
    ((d.key ∈ c.keys ∧ fault = .invalidPage d.key "scenario already registered") ∨
      (d.key ∉ c.keys ∧ c.audit.check d.page.syncNames = .error fault))) ∧ c' = c := by
  cases call with
  | scenario d =>
    rw [perform, register_eq_error_iff, d.page_scenario]
    simp [Declaration.scenario]
  | shared r => simp [perform]

lemma next_of_eq_error (h : c.perform call = (.error fault, c')) : c.next call = c := by
  obtain ⟨-, rfl⟩ := perform_eq_error_iff.mp h
  rw [next, h]

lemma next_scenario : c.next (.scenario d) =
    if d.key ∉ c.keys ∧ c.audit.accepts d.page.syncNames = true then
      { c with scenarios := c.scenarios.insert d.key d.scenario }
    else c := by
  split
  · next hadmitted =>
    rw [next, perform_scenario_eq_ok_iff.mpr ⟨hadmitted.1, hadmitted.2, rfl⟩]
  · next hrefused =>
    rcases hperform : c.perform (.scenario d) with ⟨fault | ⟨⟩, c'⟩
    · exact next_of_eq_error hperform
    · obtain ⟨hkey, haccepts, -⟩ := perform_scenario_eq_ok_iff.mp hperform
      exact absurd ⟨hkey, haccepts⟩ hrefused

lemma audit_next : (c.next call).audit = c.audit := by
  cases call with
  | scenario d =>
    rw [next_scenario]
    split <;> rfl
  | shared r => rfl

/-- A call leaves what is there, and adds what it declares if nothing is in the way. -/
lemma get?_scenarios_next : (c.next call).scenarios.get? key =
    (c.scenarios.get? key).or ((c.audit.firstAccepted? key [call]).map Declaration.scenario) := by
  cases call with
  | shared r => exact Option.or_none.symm
  | scenario d =>
    have hfirst : c.audit.firstAccepted? key [.scenario d] =
        if d.key = key ∧ c.audit.accepts d.page.syncNames = true then some d else none := by
      simp [Audit.firstAccepted?, Registration.declaration?]
    rw [next_scenario, hfirst]
    by_cases hkey : d.key = key
    · subst hkey
      -- a key that is taken keeps its scenario, whether or not the new page would be accepted
      cases hget : c.scenarios.get? d.key with
      | some scenario =>
        have htaken : d.key ∈ c.keys := Dict.mem_keys_of_get? hget
        simp [htaken, hget]
      | none =>
        have hnew : d.key ∉ c.keys := by
          simp [Catalog.keys, Dict.mem_keys_iff, hget]
        by_cases haccepts : c.audit.accepts d.page.syncNames = true
        · simp [hnew, haccepts, Dict.get?_insert]
        · simp [hnew, haccepts, hget]
    · simp only [hkey, false_and, if_false, Option.map_none, Option.or_none]
      split
      · rw [Dict.get?_insert, if_neg (Ne.symm hkey)]
      · rfl

/-- A renderer that is shared replaces the one before it. -/
lemma get?_shared_next : (c.next call).shared.get? typeName =
    (Renderer.lastFor? typeName ([call].filterMap Registration.renderer?)).or
      (c.shared.get? typeName) := by
  cases call with
  | scenario d =>
    rw [next_scenario]
    split <;> rfl
  | shared r =>
    change (c.share r).shared.get? typeName = (Renderer.lastFor? typeName [r]).or _
    rw [share, Dict.get?_insert, Renderer.lastFor?_singleton]
    by_cases htype : r.typeName = typeName
    · simp [htype]
    · simp [htype, Ne.symm htype]

/-! ### A whole history -/

lemma audit_after : (c.after history).audit = c.audit := by
  induction history generalizing c with
  | nil => rfl
  | cons call history ih => exact ih.trans audit_next

lemma get?_scenarios_after : (c.after history).scenarios.get? key = (c.scenarios.get? key).or
    ((c.audit.firstAccepted? key history).map Declaration.scenario) := by
  induction history generalizing c with
  | nil => exact Option.or_none.symm
  | cons call history ih =>
    rw [after, foldl_cons, ← after, ih, get?_scenarios_next, audit_next,
      Audit.firstAccepted?_cons call history, Option.map_or, Option.or_assoc]

lemma get?_shared_after : (c.after history).shared.get? typeName =
    (Renderer.lastFor? typeName (history.filterMap Registration.renderer?)).or
      (c.shared.get? typeName) := by
  induction history generalizing c with
  | nil => rfl
  | cons call history ih =>
    rw [after, foldl_cons, ← after, ih, get?_shared_next, ← Option.or_assoc,
      ← Renderer.lastFor?_append, ← filterMap_append, singleton_append]

/-- A call that fails could as well be left out. -/
lemma after_cons_of_eq_error (h : c.perform call = (.error fault, c'))
    (later : List Registration) : c.after (call :: later) = c.after later := by
  rw [after, foldl_cons, next_of_eq_error h, ← after]

/-- A scenario stays as it was registered. -/
lemma scenario_after (h : c.scenario key = .ok scenario) (later : List Registration) :
    (c.after later).scenario key = .ok scenario := by
  rw [scenario_eq_ok_iff] at h ⊢
  rw [get?_scenarios_after, h, Option.some_or]

/-! ### A history from its beginning -/

/-- The catalog that has an audit and was empty before some calls. -/
def ofHistory (a : Audit) (history : List Registration) : Catalog :=
  ({ audit := a } : Catalog).after history

lemma audit_ofHistory : (ofHistory a history).audit = a := audit_after

lemma get?_scenarios_ofHistory : (ofHistory a history).scenarios.get? key =
    (a.firstAccepted? key history).map Declaration.scenario :=
  get?_scenarios_after.trans Option.none_or

lemma get?_shared_ofHistory : (ofHistory a history).shared.get? typeName =
    Renderer.lastFor? typeName (history.filterMap Registration.renderer?) :=
  get?_shared_after.trans Option.or_none

lemma mem_keys_ofHistory : key ∈ (ofHistory a history).keys ↔
    ∃ d, .scenario d ∈ history ∧ d.key = key ∧ a.accepts d.page.syncNames = true := by
  rw [Catalog.keys, Dict.mem_keys_iff, get?_scenarios_ofHistory, ← Option.isSome_iff_exists,
    Option.isSome_map, Audit.isSome_firstAccepted?_iff]

lemma scenario_ofHistory : (ofHistory a history).scenario key =
    match a.firstAccepted? key history with
    | some d => .ok d.scenario
    | none => .error (.unknownScenario key) := by
  rw [Catalog.scenario, get?_scenarios_ofHistory]
  cases a.firstAccepted? key history <;> rfl

/-- What a catalog opens with has been accepted, and its components bear their names. -/
lemma accepted_of_defaultPage {page : Page}
    (h : (ofHistory a history).defaultPage key = .ok page) :
    a.accepts page = true ∧ Named page.components := by
  obtain ⟨scenario, hscenario, rfl⟩ := map_eq_ok_iff.mp h
  rw [scenario_eq_ok_iff, get?_scenarios_ofHistory, Option.map_eq_some_iff] at hscenario
  obtain ⟨d, hd, rfl⟩ := hscenario
  rw [d.page_scenario]
  exact ⟨(Audit.firstAccepted?_eq_some hd).2, named_syncNames d.page⟩

lemma renderer_ofHistory : (ofHistory a history).renderer key typeName =
    match a.firstAccepted? key history with
    | some d =>
      match (Renderer.lastFor? typeName d.renderers).or
        (Renderer.lastFor? typeName (history.filterMap Registration.renderer?)) with
      | some r => .ok r
      | none => .error (.noRenderer key typeName)
    | none => .error (.unknownScenario key) := by
  rw [renderer, scenario_ofHistory]
  cases a.firstAccepted? key history with
  | none => rfl
  | some d =>
    dsimp only
    rw [ok_bind, d.get?_renderers_scenario, get?_shared_ofHistory]
    cases Renderer.lastFor? typeName d.renderers <;> rfl

/-- What a catalog has become after some calls, whichever of them have failed. A call fails if it
declares a scenario under a key that is taken or with a page that is not accepted; then it leaves
the catalog as it is, and could as well be left out. What is found for a key stays for ever: it is
the first declaration of the key that is accepted, and its page bears the names of its components.
The renderer of a type is the last one that this declaration binds to it, else the last one that any
call has shared. -/
theorem follows_history (a : Audit) (history : List Registration) :
    let c := ofHistory a history
    (∀ call fault c', c.perform call = (.error fault, c') ↔ (∃ d, call = .scenario d ∧
      ((d.key ∈ c.keys ∧ fault = .invalidPage d.key "scenario already registered") ∨
        (d.key ∉ c.keys ∧ a.check d.page.syncNames = .error fault))) ∧ c' = c) ∧
    (∀ call fault c', c.perform call = (.error fault, c') →
      ∀ later, c.after (call :: later) = c.after later) ∧
    (∀ key scenario, c.scenario key = .ok scenario →
      ∀ later, (c.after later).scenario key = .ok scenario) ∧
    (∀ key page, c.defaultPage key = .ok page →
      a.accepts page = true ∧ Named page.components) ∧
    (∀ key, key ∈ c.keys ↔
      ∃ d, .scenario d ∈ history ∧ d.key = key ∧ a.accepts d.page.syncNames = true) ∧
    (∀ key, c.scenario key = match a.firstAccepted? key history with
      | some d => .ok d.scenario
      | none => .error (.unknownScenario key)) ∧
    ∀ key typeName, c.renderer key typeName = match a.firstAccepted? key history with
      | some d =>
        match (Renderer.lastFor? typeName d.renderers).or
          (Renderer.lastFor? typeName (history.filterMap Registration.renderer?)) with
        | some r => .ok r
        | none => .error (.noRenderer key typeName)
      | none => .error (.unknownScenario key) := by
  refine ⟨?_, fun call fault c' => after_cons_of_eq_error, fun key scenario => scenario_after,
    fun key page => accepted_of_defaultPage, fun key => mem_keys_ofHistory,
    fun key => scenario_ofHistory, fun key typeName => renderer_ofHistory⟩
  intro call fault c'
  rw [perform_eq_error_iff, audit_ofHistory]

/-- Calls of which two fail: a page has a component without a type, and a key is taken. -/
def newsHistory : List Registration :=
  [.scenario { page := { scenario := "blank", components := .ofList [("head", .ofType "" "")] } },
    .scenario {
      page := Audit.contendedPage
      renderers := [(Kind.plain "panel").renderer, (Kind.stateOnly "panel").renderer] },
    .shared (Kind.stateOnly "panel").renderer,
    .scenario { page := Audit.contendedPage },
    .scenario { page := Audit.contendedPage, key := "copy" },
    .shared (Kind.plain "panel").renderer]

/-- A page is registered under its own key and under another. The first has its own renderers, and
the second has the one that is shared last. -/
theorem follows_history_news :
    let c := ofHistory {} newsHistory
    (c.perform (.scenario { page := Audit.contendedPage }) =
        (.error (.invalidPage "news" "scenario already registered"), c) ∧
      c.after [.scenario { page := Audit.contendedPage }] = c) ∧
    (c.defaultPage "copy" = .ok Audit.contendedPage.syncNames ∧
      (⟨false⟩ : Audit).accepts Audit.contendedPage.syncNames = true) ∧
    (∀ later, (c.after later).scenario "copy" = c.scenario "copy") ∧
    c.renderer "news" "panel" = .ok (Kind.stateOnly "panel").renderer ∧
    c.renderer "copy" "panel" = .ok (Kind.plain "panel").renderer ∧
    c.renderer "copy" "chart" = .error (.noRenderer "copy" "chart") ∧
    c.renderer "blank" "panel" = .error (.unknownScenario "blank") := by
  intro c
  obtain ⟨hfails, hdrop, hstays, haccepted, hkeys, hscenario, hrenderer⟩ :=
    follows_history {} newsHistory
  have haccepts : ({} : Audit).accepts Audit.contendedPage.syncNames = true := by decide +kernel
  have hrefused : ({} : Audit).accepts (Page.syncNames
      { scenario := "blank", components := .ofList [("head", .ofType "" "")] }) = false := by
    decide +kernel
  have hkey : Audit.contendedPage.scenario = "news" := rfl
  have hnews : ({} : Audit).firstAccepted? "news" newsHistory = some {
      page := Audit.contendedPage
      renderers := [(Kind.plain "panel").renderer, (Kind.stateOnly "panel").renderer] } := by
    simp [Audit.firstAccepted?, newsHistory, Registration.declaration?, haccepts, hkey]
  have hcopy : ({} : Audit).firstAccepted? "copy" newsHistory =
      some { page := Audit.contendedPage, key := "copy" } := by
    simp [Audit.firstAccepted?, newsHistory, Registration.declaration?, haccepts, hkey]
  have hblank : ({} : Audit).firstAccepted? "blank" newsHistory = none := by
    simp [Audit.firstAccepted?, newsHistory, Registration.declaration?, hrefused, hkey]
  have hfailed : c.perform (.scenario { page := Audit.contendedPage }) =
      (.error (.invalidPage "news" "scenario already registered"), c) := by
    refine (hfails _ _ _).mpr ⟨⟨_, rfl, Or.inl ⟨(hkeys _).mpr ?_, rfl⟩⟩, rfl⟩
    exact ⟨{ page := Audit.contendedPage }, by simp [newsHistory], rfl, haccepts⟩
  have hfound : c.scenario "copy" =
      .ok (Declaration.scenario { page := Audit.contendedPage, key := "copy" }) :=
    (hscenario "copy").trans (by rw [hcopy])
  have hdefault : c.defaultPage "copy" = .ok Audit.contendedPage.syncNames := by
    rw [defaultPage, hfound]
    rfl
  refine ⟨⟨hfailed, hdrop _ _ _ hfailed []⟩, ⟨hdefault, (haccepted _ _ hdefault).1⟩, ?_,
    (hrenderer _ _).trans ?_, (hrenderer _ _).trans ?_, (hrenderer _ _).trans ?_,
    (hrenderer _ _).trans ?_⟩
  · intro later
    rw [hfound, hstays _ _ hfound later]
  · rw [hnews]
    rfl
  · rw [hcopy]
    rfl
  · rw [hcopy]
    rfl
  · rw [hblank]

end Catalog

end PageRender
