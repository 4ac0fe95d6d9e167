import PageRender.Proofs.Service.Preview

/-!
# Refusals before the first step

A pass may fail before anything is dispatched. The preview of its request foretells the failure, with
one exception: an empty plan that the settings do not allow has an empty preview.
-/

namespace PageRender

namespace Service

variable {s : Service} {request : Request} {prepared : Prepared} {ready : Ready} {f : Fault}
  {t : RenderTree}

/-- The pass of a request fails, and in no order of its moves is anything dispatched before. -/
def FailsUndispatched (s : Service) (request : Request) (f : Fault) : Prop :=
  s.render request = .error (.fault f) ∧
    ∀ ready moves log outcome pass, s.ready request = .ok ready →
      Dispatch.Execution (s.runner request ready.tree) ready.pass moves log outcome pass →
      ∀ i, .dispatched i ∉ log

lemma render_of_ready_error (h : s.ready request = .error f) :
    s.render request = .error (.fault f) := by
  rw [render, h]
  rfl

/-- A pass without nodes is successful: no component can have reported a fault. -/
lemma exists_render_of_no_root (h : s.ready request = .ok ready) (hroot : ready.tree.root? = none) :
    ∃ response, s.render request = .ok response := by
  obtain ⟨prepared, -, -, hready⟩ := exists_prepared_of_ready h
  have hfault : ready.pass.blackboard.fault? = none := by
    rw [hready]
    exact Blackboard.fault?_clearFault _
  have hload : (s.runner request ready.tree).overload? = none := by
    simp [Runner.overload?, runner, hroot]
  have hrun : Dispatch.run (s.runner request ready.tree) ready.pass = (.ok [], ready.pass) := by
    have hroot' : (s.runner request ready.tree).tree.root? = none := hroot
    rw [Dispatch.run, hroot']
  have hmap : (Except.ok ready : Except Fault Ready).mapError Halt.fault = .ok ready := rfl
  simp only [render, h, hmap, ok_bind, hload, run, hrun, answer, hfault]
  exact ⟨_, rfl⟩

lemma failsUndispatched_iff : s.FailsUndispatched request f ↔ s.ready request = .error f := by
  constructor
  · rintro ⟨hrender, hnone⟩
    cases hready : s.ready request with
    | error g =>
      rw [render_of_ready_error hready] at hrender
      cases hrender
      rfl
    | ok ready =>
      exfalso
      obtain ⟨prepared, -, hbuild, -⟩ := exists_prepared_of_ready hready
      cases hroot : ready.tree.root? with
      | none =>
        obtain ⟨response, hresponse⟩ := exists_render_of_no_root hready hroot
        rw [hresponse] at hrender
        cases hrender
      | some root =>
        obtain ⟨moves, log, hrun⟩ :=
          Dispatch.exists_execution_run (r := s.runner request ready.tree)
            (RenderTree.rooted_of_build hbuild []) s.settings.permits_ne_zero ready.pass
        exact hnone ready moves log _ _ hready hrun root (hrun.dispatched_root hroot)
  · intro h
    refine ⟨render_of_ready_error h, ?_⟩
    intro ready moves log outcome pass hready
    rw [h] at hready
    cases hready

lemma preview_of_prepare_error (h : s.prepare request = .error f) :
    s.preview request = .error f := by
  rw [preview, h]
  rfl

lemma preview_of_tree_error (h : s.prepare request = .ok prepared)
    (htree : Prepared.tree prepared = .error f) : s.preview request = .error f := by
  rw [preview, h]
  change (Prepared.tree prepared >>= _) = _
  rw [htree]
  rfl

lemma tree_of_no_steps (h : prepared.plan.steps = []) : ∃ t, Prepared.tree prepared = .ok t := by
  refine ⟨.serial [], ?_⟩
  rw [Prepared.tree, h, RenderTree.build_nil]
  rfl

/-- A tree that cannot be built has steps. -/
lemma steps_of_tree_error (h : Prepared.tree prepared = .error f) :
    prepared.plan.steps.isEmpty = false := by
  rw [List.isEmpty_eq_false_iff]
  intro hnil
  obtain ⟨t, ht⟩ := tree_of_no_steps hnil
  rw [ht] at h
  cases h

/-- What comes before the first step fails as the preview does, or because the plan is empty. -/
lemma ready_eq_error_iff : s.ready request = .error f ↔ s.preview request = .error f ∨
    s.settings.rejectEmptyPlan = true ∧ f = .invalidPage request.scenario "render plan is empty" ∧
      ∃ p, s.preview request = .ok p ∧ p.items = [] := by
  cases hprepare : s.prepare request with
  | error g =>
    rw [ready_of_prepare_error hprepare, preview_of_prepare_error hprepare]
    simp
  | ok prepared =>
    rw [ready_of_prepare hprepare]
    cases htree : Prepared.tree prepared with
    | error g =>
      rw [preview_of_tree_error hprepare htree, steps_of_tree_error htree]
      simp [Except.map]
    | ok t =>
      rw [preview_eq hprepare (mapError_eq_ok_iff.mp htree)]
      by_cases hempty : prepared.plan.steps = []
      · by_cases hreject : s.settings.rejectEmptyPlan = true
        · simp [hempty, hreject, eq_comm]
        · simp [hempty, hreject, Except.map]
      · simp [hempty, Except.map]

/-- A pass fails before anything is dispatched exactly if the preview of its request fails with the
same fault, or if its plan is empty and the settings do not allow that. A preview is given of an
empty plan all the same; so previews and such failures agree on a request unless this happens. -/
theorem failsUndispatched_iff_preview (s : Service) (request : Request) :
    (∀ f, s.FailsUndispatched request f ↔ s.preview request = .error f ∨
      s.settings.rejectEmptyPlan = true ∧
        f = .invalidPage request.scenario "render plan is empty" ∧
        ∃ p, s.preview request = .ok p ∧ p.items = []) ∧
    ((∀ f, s.preview request = .error f ↔ s.FailsUndispatched request f) ↔
      ¬(s.settings.rejectEmptyPlan = true ∧ ∃ p, s.preview request = .ok p ∧ p.items = [])) := by
  simp only [failsUndispatched_iff, ready_eq_error_iff, true_and, implies_true]
  constructor
  · rintro hagree ⟨hreject, p, hp, hitems⟩
    have herror := (hagree _).mpr (Or.inr ⟨hreject, rfl, p, hp, hitems⟩)
    rw [hp] at herror
    cases herror
  · intro hnot f
    rw [or_iff_left]
    rintro ⟨hreject, -, p, hp, hitems⟩
    exact hnot ⟨hreject, p, hp, hitems⟩

/-- A page that opens with nothing. -/
def blankPage : Page where
  scenario := "blank"
  rendering := .ofList [(Page.defaultKey, [])]

/-- A preview is given of a pass that fails before anything is dispatched: that of a page which opens
with nothing, where the settings do not allow an empty plan. -/
theorem preview_given_of_empty_plan :
    ∃ catalog, kept (Catalog.register {} (.ofPage blankPage)) = .ok catalog ∧
      let s : Service := { catalog, settings := { rejectEmptyPlan := true } }
      s.preview { scenario := "blank" } = .ok ⟨"blank", .full, [], []⟩ ∧
      s.FailsUndispatched { scenario := "blank" } (.invalidPage "blank" "render plan is empty") ∧
      ¬∀ f, s.preview { scenario := "blank" } = .error f ↔
        s.FailsUndispatched { scenario := "blank" } f := by
  obtain ⟨catalog, hcatalog⟩ :
      ∃ catalog, kept (Catalog.register {} (.ofPage blankPage)) = .ok catalog :=
    exists_ok_of_toBool (by decide +kernel)
  have hpreview : (kept (Catalog.register {} (.ofPage blankPage))).toOption.map (fun catalog =>
      preview { catalog, settings := { rejectEmptyPlan := true } } { scenario := "blank" }) =
      some (.ok ⟨"blank", .full, [], []⟩) := by decide +kernel
  rw [hcatalog] at hpreview
  have hgiven : preview { catalog, settings := { rejectEmptyPlan := true } }
      { scenario := "blank" } = .ok ⟨"blank", .full, [], []⟩ := Option.some.inj hpreview
  have hfails : FailsUndispatched { catalog, settings := { rejectEmptyPlan := true } }
      { scenario := "blank" } (.invalidPage "blank" "render plan is empty") :=
    failsUndispatched_iff.mpr (ready_eq_error_iff.mpr (Or.inr ⟨rfl, rfl, _, hgiven, rfl⟩))
  refine ⟨catalog, hcatalog, hgiven, hfails, ?_⟩
  intro hagree
  have herror := (hagree _).mpr hfails
  rw [hgiven] at herror
  cases herror

end Service

end PageRender
