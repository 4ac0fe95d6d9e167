import PageRender.Proofs.Audit.Accept
import PageRender.Proofs.Plan.Names

/-!
# Plans on pages that have been audited

A page with the rendering lists of a default page that has been audited can be planned, whether it
opens or an event has come for one of its components. The plan has components of the default page
only. Nothing but the wish to render one component alone can fail.
-/

namespace PageRender

open List

variable {keys seen : List String} {slots : List Slot} {slot : Slot}

namespace Plan

lemma mem_of_mem_firstSlots (h : slot ∈ firstSlots seen slots) : slot ∈ slots := by
  induction slots generalizing seen with
  | nil => cases h
  | cons first rest ih =>
    rw [firstSlots] at h
    split at h
    · exact mem_cons_of_mem first (ih h)
    · rcases mem_cons.mp h with rfl | h
      · exact mem_cons_self
      · exact mem_cons_of_mem first (ih h)

end Plan

lemma Plannable.firstSlots (h : Plannable keys slots) (seen : List String) :
    Plannable keys (Plan.firstSlots seen slots) :=
  fun slot hslot => h slot (Plan.mem_of_mem_firstSlots hslot)

lemma Plannable.exists_steps (h : Plannable keys slots) (event : Slot → Event) :
    ∃ steps, (slots.mapM fun slot => Step.ofSlot slot (event slot)) = .ok steps ∧
      ∀ step ∈ steps, step.name ∈ keys := by
  cases hsteps : slots.mapM fun slot => Step.ofSlot slot (event slot) with
  | error f =>
    obtain ⟨slot, hslot, hf⟩ := exists_of_mapM_eq_error hsteps
    obtain ⟨-, bindings, hbindings⟩ := h slot hslot
    rw [Step.ofSlot, hbindings] at hf
    cases hf
  | ok steps =>
    refine ⟨steps, rfl, ?_⟩
    intro step hstep
    have hname : step.name ∈ slots.map Slot.name := by
      rw [← Plan.names_of_mapM hsteps]
      exact mem_map_of_mem hstep
    obtain ⟨slot, hslot, hsame⟩ := mem_map.mp hname
    rw [← hsame]
    exact (h slot hslot).1

namespace Plan

variable {default live : Page} {request : Request} {event : Event} {p q : Plan} {component : String}
  {f : Fault}

section

variable (hdefault : default.WellListed) (hlive : live.rendering = default.rendering)

include hdefault hlive

lemma plannable_openingSlots : Plannable default.components.keys (openingSlots default live) := by
  rw [openingSlots, Page.defaultRendering?, Page.defaultRendering?, hlive]
  cases hslots : default.rendering.get? Page.defaultKey with
  | some slots => exact hdefault _ slots hslots
  | none =>
    intro slot hslot
    obtain ⟨name, hname, rfl⟩ := mem_map.mp hslot
    exact ⟨hname, [], rfl⟩

lemma plannable_downstreamSlots (component : String) :
    Plannable default.components.keys (downstreamSlots default live component) := by
  rw [downstreamSlots, Page.downstream?, Page.downstream?, hlive]
  cases hslots : default.rendering.get? component with
  | some slots => exact hdefault _ slots hslots
  | none => exact fun slot hslot => absurd hslot not_mem_nil

lemma exists_full : ∃ p, full default live = .ok p ∧ ∀ step ∈ p.steps,
    step.name ∈ default.components.keys := by
  obtain ⟨steps, hsteps, hknown⟩ := ((plannable_openingSlots hdefault hlive).firstSlots []).exists_steps
    fun slot => .opening slot.name
  refine ⟨⟨.full, steps⟩, ?_, hknown⟩
  rw [full, hsteps]
  rfl

lemma exists_after (hevent : event.component ∈ default.components.keys) :
    ∃ p, after event default live = .ok p ∧ ∀ step ∈ p.steps,
      step.name ∈ default.components.keys := by
  obtain ⟨steps, hsteps, hknown⟩ := ((plannable_downstreamSlots hdefault hlive
    event.component).firstSlots [event.component]).exists_steps fun slot => .refreshing slot.name
  refine ⟨⟨.affected, ⟨{ name := event.component }, [], event⟩ :: steps⟩, ?_, ?_⟩
  · rw [after, hsteps]
    rfl
  · intro step hstep
    rcases mem_cons.mp hstep with rfl | hstep
    · exact hevent
    · exact hknown step hstep

lemma exists_whole (htarget : ∀ event, request.target? = some event →
    event.component ∈ default.components.keys) :
    ∃ p, whole default request live = .ok p ∧ ∀ step ∈ p.steps,
      step.name ∈ default.components.keys := by
  unfold whole
  split
  · next event _ hevent => exact exists_after hdefault hlive (htarget event hevent)
  · exact exists_full hdefault hlive

end

/-- A plan that is narrowed down has no new steps. -/
lemma steps_subset_of_only (h : p.only component = .ok q) : q.steps ⊆ p.steps := by
  unfold only at h
  split at h
  · next step hstep =>
    cases h
    intro other hother
    rw [mem_singleton.mp hother]
    exact mem_of_find?_eq_some hstep
  · cases h

lemma eq_notPlanned_of_only (h : p.only component = .error f) : f = .notPlanned component := by
  unfold only at h
  split at h
  · cases h
  · cases h
    rfl

/-- Planning comes to a plan of known components, unless one is asked for alone that is not among
them. -/
theorem ofRequest_known (hdefault : default.WellListed) (hlive : live.rendering = default.rendering)
    (htarget : ∀ event, request.target? = some event → event.component ∈ default.components.keys) :
    (∃ p, ofRequest default request live = .ok p ∧ ∀ step ∈ p.steps,
      step.name ∈ default.components.keys) ∨
    ∃ name, request.only = some name ∧ ofRequest default request live = .error (.notPlanned name) := by
  obtain ⟨p, hp, hknown⟩ := exists_whole hdefault hlive htarget
  rw [ofRequest, hp, ok_bind]
  cases hrequest : request.only with
  | none => exact Or.inl ⟨p, rfl, hknown⟩
  | some name =>
    dsimp only
    cases honly : p.only name with
    | ok q => exact Or.inl ⟨q, rfl, fun step hstep => hknown step (steps_subset_of_only honly hstep)⟩
    | error f =>
      obtain rfl := eq_notPlanned_of_only honly
      exact Or.inr ⟨name, rfl, rfl⟩

end Plan

end PageRender
