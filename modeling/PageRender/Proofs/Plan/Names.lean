import PageRender.Plan
import PageRender.Proofs.Except

/-!
# The components of a plan

No component is planned twice: of slots for the same component the first one counts, and the
component of an event is taken out of what is downstream of it.
-/

namespace PageRender

namespace Step

/-- The component that renders, and the operation that it gets. -/
def item (s : Step) : String × String :=
  (s.name, s.event.operation)

lemma name_of_ofSlot {slot : Slot} {event : Event} {s : Step} (h : ofSlot slot event = .ok s) :
    s.name = slot.name := by
  obtain ⟨bindings, -, rfl⟩ := map_eq_ok_iff.mp h
  rfl

end Step

namespace Plan

variable {seen : List String} {slots : List Slot} {p q : Plan}

lemma not_mem_of_mem_firstSlots {slot : Slot} (h : slot ∈ firstSlots seen slots) :
    slot.name ∉ seen := by
  induction slots generalizing seen with
  | nil => cases h
  | cons first rest ih =>
    rw [firstSlots] at h
    split at h
    · exact ih h
    · next hfirst =>
      rcases List.mem_cons.mp h with rfl | h
      · exact hfirst
      · exact fun hmem => ih h (List.mem_cons_of_mem _ hmem)

lemma nodup_firstSlots : ((firstSlots seen slots).map Slot.name).Nodup := by
  induction slots generalizing seen with
  | nil => exact List.nodup_nil
  | cons first rest ih =>
    rw [firstSlots]
    split
    · exact ih
    · rw [List.map_cons, List.nodup_cons]
      refine ⟨fun hmem => ?_, ih⟩
      obtain ⟨slot, hslot, hname⟩ := List.mem_map.mp hmem
      exact not_mem_of_mem_firstSlots hslot (hname ▸ List.mem_cons_self)

/-- The steps that are planned for slots have the names of the slots. -/
lemma names_of_mapM {event : Slot → Event} {steps : List Step}
    (h : (slots.mapM fun slot => Step.ofSlot slot (event slot)) = .ok steps) :
    steps.map Step.name = slots.map Slot.name :=
  map_eq_of_mapM (fun _ _ => Step.name_of_ofSlot) h

lemma nodup_full {default live : Page} (h : full default live = .ok p) : p.names.Nodup := by
  obtain ⟨steps, hsteps, h⟩ := bind_eq_ok_iff.mp h
  cases h
  rw [names, names_of_mapM hsteps]
  exact nodup_firstSlots

lemma nodup_after {event : Event} {default live : Page} (h : after event default live = .ok p) :
    p.names.Nodup := by
  obtain ⟨steps, hsteps, h⟩ := bind_eq_ok_iff.mp h
  cases h
  rw [names, List.map_cons, names_of_mapM hsteps, List.nodup_cons]
  refine ⟨fun hmem => ?_, nodup_firstSlots⟩
  obtain ⟨slot, hslot, hname⟩ := List.mem_map.mp hmem
  exact not_mem_of_mem_firstSlots hslot (hname ▸ List.mem_singleton_self _)

lemma nodup_only {component : String} (h : p.only component = .ok q) : q.names.Nodup := by
  unfold only at h
  split at h
  · cases h
    exact List.nodup_singleton _
  · cases h

lemma nodup_whole {default live : Page} {request : Request}
    (h : whole default request live = .ok p) : p.names.Nodup := by
  unfold whole at h
  split at h
  · exact nodup_after h
  · exact nodup_full h

/-- No component is planned twice. -/
theorem nodup_names_ofRequest {default live : Page} {request : Request}
    (h : ofRequest default request live = .ok p) : p.names.Nodup := by
  obtain ⟨q, hq, h⟩ := bind_eq_ok_iff.mp h
  split at h
  · exact nodup_only h
  · cases h
    exact nodup_whole hq

end Plan

end PageRender
