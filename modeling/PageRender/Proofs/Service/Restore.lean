import PageRender.Proofs.Plan.Names
import PageRender.Proofs.Catalog
import PageRender.Service.Basic

/-!
# Pages that are completed

What the preparations of a pass make of the live page. Planned components that it lacks are added
from the default page, in the order of the plan; everything else stays. Every planned component is
then there, and there is a renderer for its type.
-/

namespace PageRender

open List

variable {default live live' : Page} {names : List String} {name : String} {c : Component}

lemma Page.exists_component_iff :
    (∃ c, live.component? name = some c) ↔ name ∈ live.components.keys :=
  Dict.mem_keys_iff.symm

lemma Page.component?_eq_none_iff :
    live.component? name = none ↔ name ∉ live.components.keys := by
  rw [← exists_component_iff, ← Option.isSome_iff_exists, Option.not_isSome_iff_eq_none]

/-- A page to which those of the named components that it lacked have been added from the default
page, one after the other. -/
structure Page.Completes (default live : Page) (names : List String) (live' : Page) : Prop where
  page_eq : live' = { live with components := live'.components }
  keys : live'.components.keys =
    live.components.keys ++ names.filter fun name => name ∉ live.components.keys
  component? : ∀ name, live'.component? name =
    if name ∈ names then live.component? name <|> default.component? name else live.component? name

namespace Page.Completes

lemma refl (default live : Page) : Completes default live [] live where
  page_eq := rfl
  keys := by simp
  component? := by simp

/-- The first component is there. -/
lemma skip (h : Completes default live names live') (hlive : name ∈ live.components.keys) :
    Completes default live (name :: names) live' where
  page_eq := h.page_eq
  keys := by simpa [hlive] using h.keys
  component? other := by
    rw [h.component? other]
    by_cases hother : other = name
    · subst hother
      obtain ⟨c, hc⟩ := exists_component_iff.mpr hlive
      simp [hc]
    · simp [hother]

/-- The first component is added. -/
lemma add (hname : name ∉ names) (hlive : name ∉ live.components.keys)
    (hc : default.component? name = some c)
    (h : Completes default { live with components := live.components.insert name c } names live') :
    Completes default live (name :: names) live' where
  page_eq := h.page_eq
  keys := by
    -- no later component is the one that is added
    have hfilter : (names.filter fun other => other ∉ live.components.keys ++ [name]) =
        names.filter fun other => other ∉ live.components.keys := by
      apply filter_congr
      intro other hother
      have hne : other ≠ name := by
        rintro rfl
        exact hname hother
      simp [hne]
    rw [h.keys, Dict.keys_insert, if_neg hlive, hfilter]
    simp [hlive]
  component? other := by
    have hinsert : ({ live with components := live.components.insert name c } : Page).component? other =
        if other = name then some c else live.component? other := Dict.get?_insert _ _ _ _
    rw [h.component? other, hinsert]
    by_cases hother : other = name
    · subst hother
      simp [hname, component?_eq_none_iff.mpr hlive, hc]
    · simp [hother]

/-- What is not named is as it was. -/
lemma component?_of_not_mem (h : Completes default live names live') (hname : name ∉ names) :
    live'.component? name = live.component? name := by
  rw [h.component?, if_neg hname]

/-- What the live page lacked comes from the default page. -/
lemma component?_of_lacking (h : Completes default live names live') (hname : name ∈ names)
    (hlive : name ∉ live.components.keys) : live'.component? name = default.component? name := by
  rw [h.component?, if_pos hname, component?_eq_none_iff.mpr hlive]
  rfl

end Page.Completes

namespace Service

variable {s : Service} {catalog : Catalog} {request : Request} {prepared : Prepared}
  {scenario : String} {step : Step} {steps : List Step} {f : Fault}

lemma restore_eq_ok_iff : restore scenario default live name = .ok live' ↔
    name ∈ live.components.keys ∧ live' = live ∨
    name ∉ live.components.keys ∧ ∃ c, default.component? name = some c ∧
      live' = { live with components := live.components.insert name c } := by
  rw [restore, ← Dict.contains_iff]
  by_cases hlive : live.components.contains name = true
  · simp [hlive, eq_comm]
  · cases default.component? name <;> simp [hlive, eq_comm]

lemma restore_eq_error_iff : restore scenario default live name = .error f ↔
    name ∉ live.components.keys ∧ default.component? name = none ∧
      f = .noComponent scenario name := by
  rw [restore, ← Dict.contains_iff]
  by_cases hlive : live.components.contains name = true
  · simp [hlive]
  · cases default.component? name <;> simp [hlive, eq_comm]

/-- A component that has been made sure of is there. -/
lemma exists_component_of_restore (h : restore scenario default live name = .ok live') :
    ∃ c, live'.component? name = some c := by
  rcases restore_eq_ok_iff.mp h with ⟨hlive, rfl⟩ | ⟨-, c, -, rfl⟩
  · exact Page.exists_component_iff.mpr hlive
  · refine ⟨c, ?_⟩
    rw [Page.component?, Dict.get?_insert, if_pos rfl]

lemma accept_eq_ok_iff : accept catalog scenario default live step = .ok live' ↔
    restore scenario default live step.name = .ok live' ∧
      ∃ c r, live'.component? step.name = some c ∧ catalog.renderer scenario c.typeName = .ok r := by
  rw [accept, bind_eq_ok_iff]
  constructor
  · rintro ⟨restored, hrestore, h⟩
    obtain ⟨c, hc⟩ := exists_component_of_restore hrestore
    rw [hc] at h
    obtain ⟨r, hr, rfl⟩ := map_eq_ok_iff.mp h
    exact ⟨hrestore, c, r, hc, hr⟩
  · rintro ⟨hrestore, c, r, hc, hr⟩
    refine ⟨live', hrestore, ?_⟩
    rw [hc]
    exact map_eq_ok_iff.mpr ⟨r, hr, rfl⟩

lemma accept_eq_error_iff : accept catalog scenario default live step = .error f ↔
    restore scenario default live step.name = .error f ∨
      ∃ restored c, restore scenario default live step.name = .ok restored ∧
        restored.component? step.name = some c ∧ catalog.renderer scenario c.typeName = .error f := by
  rw [accept, bind_eq_error_iff]
  refine or_congr_right ⟨?_, ?_⟩
  · rintro ⟨restored, hrestore, h⟩
    obtain ⟨c, hc⟩ := exists_component_of_restore hrestore
    rw [hc] at h
    exact ⟨restored, c, hrestore, hc, map_eq_error_iff.mp h⟩
  · rintro ⟨restored, c, hrestore, hc, hr⟩
    refine ⟨restored, hrestore, ?_⟩
    rw [hc]
    exact map_eq_error_iff.mpr hr

/-- There is a component of a name on a page, and a renderer for its type. -/
def Checked (catalog : Catalog) (scenario : String) (page : Page) (name : String) : Prop :=
  ∃ c r, page.component? name = some c ∧ catalog.renderer scenario c.typeName = .ok r

/-- All components of steps have been made sure of. -/
lemma completes_of_acceptAll (hnames : (steps.map Step.name).Nodup)
    (h : steps.foldlM (accept catalog scenario default) live = .ok live') :
    Page.Completes default live (steps.map Step.name) live' ∧
      ∀ step ∈ steps, Checked catalog scenario live' step.name := by
  induction steps generalizing live with
  | nil =>
    cases h
    exact ⟨.refl default live', by simp⟩
  | cons step rest ih =>
    rw [foldlM_cons, bind_eq_ok_iff] at h
    obtain ⟨restored, haccept, h⟩ := h
    obtain ⟨hrestore, c, r, hc, hr⟩ := accept_eq_ok_iff.mp haccept
    rw [map_cons, nodup_cons] at hnames
    obtain ⟨hcompletes, hchecked⟩ := ih hnames.2 h
    refine ⟨?_, ?_⟩
    · rcases restore_eq_ok_iff.mp hrestore with ⟨hlive, rfl⟩ | ⟨hlive, d, hd, rfl⟩
      · exact hcompletes.skip hlive
      · exact .add hnames.1 hlive hd hcompletes
    · intro other hother
      rcases mem_cons.mp hother with rfl | hother
      · exact ⟨c, r, (hcompletes.component?_of_not_mem hnames.1).trans hc, hr⟩
      · exact hchecked other hother

/-- If all components of steps are there, then making sure of them can fail only for lack of a
renderer. -/
lemma exists_of_acceptAll_eq_error (hlive : ∀ step ∈ steps, step.name ∈ live.components.keys)
    (h : steps.foldlM (accept catalog scenario default) live = .error f) :
    ∃ step ∈ steps, ∃ c, live.component? step.name = some c ∧
      catalog.renderer scenario c.typeName = .error f := by
  induction steps with
  | nil => cases h
  | cons step rest ih =>
    have hstep := hlive step mem_cons_self
    rw [foldlM_cons, bind_eq_error_iff] at h
    rcases h with haccept | ⟨restored, haccept, h⟩
    · rcases accept_eq_error_iff.mp haccept with hrestore | ⟨restored, c, hrestore, hc, hr⟩
      · exact absurd hstep (restore_eq_error_iff.mp hrestore).1
      · rcases restore_eq_ok_iff.mp hrestore with ⟨-, rfl⟩ | ⟨hlacking, -⟩
        · exact ⟨step, mem_cons_self, c, hc, hr⟩
        · exact absurd hstep hlacking
    · rcases restore_eq_ok_iff.mp (accept_eq_ok_iff.mp haccept).1 with ⟨-, rfl⟩ | ⟨hlacking, -⟩
      · obtain ⟨other, hother, hfound⟩ := ih (fun other hother => hlive other (mem_cons_of_mem _ hother)) h
        exact ⟨other, mem_cons_of_mem step hother, hfound⟩
      · exact absurd hstep hlacking

lemma prepare_eq_ok_iff : s.prepare request = .ok prepared ↔
    ∃ scenario, s.catalog.scenario request.scenario = .ok scenario ∧
      Plan.ofRequest scenario.page request (livePage scenario.page request) = .ok prepared.plan ∧
      prepared.plan.steps.foldlM (accept s.catalog request.scenario scenario.page)
        (livePage scenario.page request) = .ok prepared.live ∧
      prepared.parallel = parallelGroups scenario.page prepared.live := by
  obtain ⟨live, plan, parallel⟩ := prepared
  simp only [prepare, bind_eq_ok_iff]
  constructor
  · rintro ⟨scenario, hscenario, plan', hplan, live', hlive, h⟩
    cases h
    exact ⟨scenario, hscenario, hplan, hlive, rfl⟩
  · rintro ⟨scenario, hscenario, hplan, hlive, rfl⟩
    exact ⟨scenario, hscenario, plan, hplan, live, hlive, rfl⟩

lemma nodup_of_prepare (h : s.prepare request = .ok prepared) : prepared.plan.names.Nodup := by
  obtain ⟨scenario, -, hplan, -⟩ := prepare_eq_ok_iff.mp h
  exact Plan.nodup_names_ofRequest hplan

/-- What a pass that has been prepared runs on: the live page, completed. -/
lemma completes_of_prepare (h : s.prepare request = .ok prepared) :
    ∃ scenario, s.catalog.scenario request.scenario = .ok scenario ∧
      Plan.ofRequest scenario.page request (livePage scenario.page request) = .ok prepared.plan ∧
      Page.Completes scenario.page (livePage scenario.page request) prepared.plan.names
        prepared.live ∧
      ∀ step ∈ prepared.plan.steps, Checked s.catalog request.scenario prepared.live step.name := by
  obtain ⟨scenario, hscenario, hplan, hlive, -⟩ := prepare_eq_ok_iff.mp h
  exact ⟨scenario, hscenario, hplan, completes_of_acceptAll (nodup_of_prepare h) hlive⟩

end Service

end PageRender
