import PageRender.Proofs.Plan.Names

/-!
# What requests ask for

Which components a request asks for, and with which events, as it is read off the request and the
rendering lists of the two pages. Planning comes to this list, with the bindings understood, or to
the first fault: that of the first binding that cannot be understood, wherever it is asked for, and
only then that of a component which is asked for alone and is not in the list.
-/

namespace PageRender

open List

/-- The first slot for each component, in order. -/
def firstByName (slots : List Slot) : List Slot :=
  slots.eraseDupsBy fun slot earlier => slot.name == earlier.name

lemma firstByName_cons (slot : Slot) (slots : List Slot) : firstByName (slot :: slots) =
    slot :: firstByName (slots.filter fun other => other.name ≠ slot.name) := by
  simp [firstByName, eraseDupsBy_cons]

lemma firstByName_of_nodup {slots : List Slot} (h : (slots.map Slot.name).Nodup) :
    firstByName slots = slots := by
  induction slots with
  | nil => rfl
  | cons slot slots ih =>
    obtain ⟨hnot, hnodup⟩ := nodup_cons.mp h
    have hfilter : (slots.filter fun other => other.name ≠ slot.name) = slots := by
      apply filter_eq_self.mpr
      intro other hother
      have hne : other.name ≠ slot.name := by
        intro hsame
        exact hnot (hsame ▸ mem_map_of_mem hother)
      simpa using hne
    rw [firstByName_cons, hfilter, ih hnodup]

lemma exists_related {α β : Type} {R : α → β → Prop} {l : List α} {l' : List β}
    (h : Forall₂ R l l') {a : α} (ha : a ∈ l) : ∃ b, R a b := by
  induction h with
  | nil => cases ha
  | @cons first b _ _ hfirst _ ih =>
    rcases mem_cons.mp ha with rfl | ha
    · exact ⟨b, hfirst⟩
    · exact ih ha

/-- A step that renders a slot upon an event, with the bindings of the slot understood in order. -/
structure Step.Plans (asked : Slot × Event) (step : Step) : Prop where
  slot_eq : step.slot = asked.1
  event_eq : step.event = asked.2
  bindings : Forall₂ (fun written b => Binding.ofWritten written = .ok b) asked.1.bindings
    step.bindings

lemma Step.ofSlot_eq_ok_iff {slot : Slot} {event : Event} {step : Step} :
    ofSlot slot event = .ok step ↔ step.Plans (slot, event) := by
  rw [ofSlot, map_eq_ok_iff]
  constructor
  · rintro ⟨bindings, hbindings, rfl⟩
    exact ⟨rfl, rfl, mapM_eq_ok_iff.mp hbindings⟩
  · rintro ⟨hslot, hevent, hbindings⟩
    refine ⟨step.bindings, mapM_eq_ok_iff.mpr hbindings, ?_⟩
    cases step
    cases hslot
    cases hevent
    rfl

/-- The event of a request for a page that was sent before, if it names a component. -/
def Request.interaction? (r : Request) : Option Event :=
  match r.snapshot, r.event with
  | some _, some event => if event.component = "" then none else some event
  | _, _ => none

namespace Plan

variable {default live : Page} {request : Request} {seen : List String} {slots : List Slot}
  {wanted : List (Slot × Event)} {steps : List Step} {p q : Plan} {name : String} {f : Fault}

/-- The slots with which a page opens: by its own list, else by that of the default page, else one
without bindings for each component of the default page. -/
def openingOrder (default live : Page) : List Slot :=
  match live.defaultRendering?, default.defaultRendering? with
  | some slots, _ => firstByName slots
  | none, some slots => firstByName slots
  | none, none => default.components.keys.map fun name => { name }

/-- The slots that render after a component: by the page's own list, else by that of the default
page. -/
def downstreamOrder (default live : Page) (component : String) : List Slot :=
  let others (slots : List Slot) := firstByName (slots.filter fun slot => slot.name ≠ component)
  match live.downstream? component, default.downstream? component with
  | some slots, _ => others slots
  | none, some slots => others slots
  | none, none => []

/-- The slots that a request asks for, each with the event that its component gets. -/
def asked (default : Page) (request : Request) (live : Page) : List (Slot × Event) :=
  match request.interaction? with
  | some event =>
    ({ name := event.component }, event) :: (downstreamOrder default live event.component).map
      fun slot => (slot, ⟨slot.name, "__Rendering__", .empty⟩)
  | none =>
    (openingOrder default live).map fun slot => (slot, ⟨slot.name, "__Initialize__", .empty⟩)

/-- What is left of steps if perhaps one component is asked for alone. -/
inductive Narrows (steps : List Step) : Option String → List Step → Prop
  | all : Narrows steps none steps
  | one (step : Step) (hstep : step ∈ steps) : Narrows steps (some step.name) [step]

/-! ### The slots that are kept -/

lemma firstSlots_eq :
    firstSlots seen slots = firstByName (slots.filter fun slot => slot.name ∉ seen) := by
  induction slots generalizing seen with
  | nil => rfl
  | cons slot slots ih =>
    rw [firstSlots]
    by_cases hseen : slot.name ∈ seen
    · rw [if_pos hseen, ih]
      simp [hseen]
    · rw [if_neg hseen, ih, filter_cons_of_pos (by simpa using hseen), firstByName_cons,
        filter_filter]
      congr 3
      funext other
      simp [not_or]

lemma firstSlots_nil : firstSlots [] slots = firstByName slots := by
  rw [firstSlots_eq]
  simp

lemma firstSlots_singleton :
    firstSlots [name] slots = firstByName (slots.filter fun slot => slot.name ≠ name) := by
  rw [firstSlots_eq]
  simp

lemma firstSlots_openingSlots :
    firstSlots [] (openingSlots default live) = openingOrder default live := by
  rw [firstSlots_nil, openingSlots, openingOrder]
  cases live.defaultRendering? with
  | some slots => rfl
  | none =>
    cases default.defaultRendering? with
    | some slots => rfl
    | none =>
      apply firstByName_of_nodup
      have hnodup : default.components.keys.Nodup := default.components.nodup
      simpa [Function.comp_def] using hnodup

lemma firstSlots_downstreamSlots : firstSlots [name] (downstreamSlots default live name) =
    downstreamOrder default live name := by
  rw [firstSlots_singleton, downstreamSlots, downstreamOrder]
  cases live.downstream? name <;> cases default.downstream? name <;> rfl

/-! ### Planning -/

lemma interaction?_eq_some_iff {event : Event} : request.interaction? = some event ↔
    ∃ page, request.snapshot = some page ∧ request.event = some event ∧ event.component ≠ "" := by
  unfold Request.interaction?
  cases request.snapshot with
  | none => simp
  | some page =>
    cases request.event with
    | none => simp
    | some other =>
      by_cases h : other.component = ""
      · simp only [if_pos h]
        constructor
        · intro hnone
          cases hnone
        · rintro ⟨_, -, hother, hne⟩
          cases hother
          exact absurd h hne
      · simp only [if_neg h]
        constructor
        · rintro hother
          cases hother
          exact ⟨page, rfl, rfl, h⟩
        · rintro ⟨_, -, hother, -⟩
          exact hother

lemma whole_eq_match : whole default request live =
    match request.interaction? with
    | some event => after event default live
    | none => full default live := by
  unfold whole Request.interaction? Request.target?
  cases request.snapshot with
  | none => rfl
  | some page =>
    cases request.event with
    | none => rfl
    | some event =>
      by_cases h : event.component = "" <;> simp [Option.filter, Event.hasTarget, h]

/-- A plan before it is narrowed down: everything that is asked for, understood. -/
lemma whole_eq : whole default request live =
    ((asked default request live).mapM fun a => Step.ofSlot a.1 a.2).map
      (Plan.mk (if request.interaction?.isSome then .affected else .full)) := by
  rw [whole_eq_match, asked]
  cases request.interaction? with
  | none =>
    dsimp only
    rw [full, firstSlots_openingSlots, mapM_map]
    rfl
  | some event =>
    have hhead : Step.ofSlot { name := event.component } event =
        .ok ⟨{ name := event.component }, [], event⟩ := rfl
    have hmap (head : Step) (x : Except Fault (List Step)) :
        (x >>= fun steps => pure ⟨.affected, head :: steps⟩) =
          (x >>= fun steps => pure (head :: steps)).map (Plan.mk .affected) := by
      cases x <;> rfl
    dsimp only
    rw [after, firstSlots_downstreamSlots, mapM_cons, mapM_map, hhead, ok_bind]
    exact hmap _ _

lemma whole_eq_ok_iff : whole default request live = .ok p ↔
    (p.mode = .affected ↔ ∃ page event, request.snapshot = some page ∧
      request.event = some event ∧ event.component ≠ "") ∧
    Forall₂ Step.Plans (asked default request live) p.steps := by
  have hinteraction : request.interaction?.isSome = true ↔ ∃ page event,
      request.snapshot = some page ∧ request.event = some event ∧ event.component ≠ "" := by
    simp only [Option.isSome_iff_exists, interaction?_eq_some_iff]
    exact exists_comm
  have hsteps (steps : List Step) :
      ((asked default request live).mapM fun a => Step.ofSlot a.1 a.2) = .ok steps ↔
        Forall₂ Step.Plans (asked default request live) steps := by
    rw [mapM_eq_ok_iff]
    simp only [Step.ofSlot_eq_ok_iff]
  rw [whole_eq, map_eq_ok_iff, ← hinteraction]
  simp only [hsteps]
  constructor
  · rintro ⟨steps, hplans, rfl⟩
    refine ⟨?_, hplans⟩
    cases request.interaction?.isSome <;> simp
  · rintro ⟨hmode, hplans⟩
    refine ⟨p.steps, hplans, ?_⟩
    obtain ⟨mode, steps⟩ := p
    cases mode <;> cases hsome : request.interaction?.isSome <;> simp_all

/-- A plan fails for the first binding that cannot be understood. -/
lemma whole_eq_error_iff : whole default request live = .error f ↔
    ∃ before written after, ((asked default request live).flatMap fun a => a.1.bindings) =
        before ++ written :: after ∧
      (∀ b ∈ before, ∃ binding, Binding.ofWritten b = .ok binding) ∧
      Binding.ofWritten written = .error f := by
  rw [whole_eq, map_eq_error_iff, ← mapM_eq_error_iff]
  exact mapM_map_eq_error_iff

lemma exists_whole_iff : (∃ p, whole default request live = .ok p) ↔
    ∀ a ∈ asked default request live, ∀ b ∈ a.1.bindings,
      ∃ binding, Binding.ofWritten b = .ok binding := by
  constructor
  · rintro ⟨p, hp⟩ a ha b hb
    obtain ⟨-, hplans⟩ := whole_eq_ok_iff.mp hp
    obtain ⟨step, hstep⟩ := exists_related hplans ha
    exact exists_related hstep.bindings hb
  · intro hall
    cases hwhole : whole default request live with
    | ok p => exact ⟨p, rfl⟩
    | error f =>
      exfalso
      obtain ⟨before, written, after, hsplit, -, hf⟩ := whole_eq_error_iff.mp hwhole
      have hwritten : written ∈ (asked default request live).flatMap fun a => a.1.bindings := by
        rw [hsplit]
        exact mem_append_right _ mem_cons_self
      obtain ⟨a, ha, hb⟩ := mem_flatMap.mp hwritten
      obtain ⟨binding, hbinding⟩ := hall a ha written hb
      rw [hbinding] at hf
      cases hf

lemma nodup_asked : ((asked default request live).map fun a => a.1.name).Nodup := by
  rw [asked]
  cases request.interaction? with
  | none =>
    rw [map_map, ← firstSlots_openingSlots]
    exact nodup_firstSlots
  | some event =>
    rw [map_cons, map_map, ← firstSlots_downstreamSlots, nodup_cons]
    refine ⟨?_, nodup_firstSlots⟩
    intro hmem
    obtain ⟨slot, hslot, hname⟩ := mem_map.mp hmem
    apply not_mem_of_mem_firstSlots hslot
    exact mem_singleton.mpr hname

lemma names_of_plans (h : Forall₂ Step.Plans wanted steps) :
    steps.map Step.name = wanted.map fun a => a.1.name := by
  induction h with
  | nil => rfl
  | cons hstep _ ih => rw [map_cons, map_cons, ih, Step.name, hstep.slot_eq]

/-! ### One component alone -/

lemma only_eq_ok_iff (hnames : p.names.Nodup) : p.only name = .ok q ↔
    q.mode = p.mode ∧ Narrows p.steps (some name) q.steps := by
  unfold only
  constructor
  · intro h
    split at h
    · next step hfound =>
      cases h
      obtain rfl : step.name = name := by simpa using find?_some hfound
      exact ⟨rfl, .one step (mem_of_find?_eq_some hfound)⟩
    · cases h
  · obtain ⟨mode, steps⟩ := q
    rintro ⟨rfl, hnarrows⟩
    generalize hkept : some name = kept at hnarrows
    cases hnarrows with
    | all => cases hkept
    | one step hstep =>
      cases hkept
      have hfound : (p.steps.find? fun other => other.name = step.name) = some step := by
        have hunique : ∀ other ∈ p.steps, other.name = step.name → other = step := by
          intro other hother hsame
          exact inj_on_of_nodup_map hnames hother hstep hsame
        obtain ⟨other, hother⟩ : ∃ other,
            (p.steps.find? fun other => other.name = step.name) = some other := by
          rw [← Option.isSome_iff_exists, find?_isSome]
          exact ⟨step, hstep, by simp⟩
        rw [hother, hunique other (mem_of_find?_eq_some hother) (by simpa using find?_some hother)]
      rw [hfound]

lemma only_eq_error_iff : p.only name = .error f ↔ f = .notPlanned name ∧ name ∉ p.names := by
  unfold only
  cases hfound : p.steps.find? fun step => step.name = name with
  | some step =>
    have hname : step.name = name := by simpa using find?_some hfound
    have hmem : name ∈ p.names := by
      rw [← hname]
      exact mem_map_of_mem (mem_of_find?_eq_some hfound)
    simp [hmem]
  | none =>
    have hnot : name ∉ p.names := by
      rw [find?_eq_none] at hfound
      intro hmem
      obtain ⟨step, hstep, hname⟩ := mem_map.mp hmem
      exact hfound step hstep (by simpa using hname)
    simp [hnot, eq_comm]

/-! ### Requests -/

lemma ofRequest_eq_ok_iff : ofRequest default request live = .ok p ↔
    (p.mode = .affected ↔ ∃ page event, request.snapshot = some page ∧
      request.event = some event ∧ event.component ≠ "") ∧
    ∃ steps, Forall₂ Step.Plans (asked default request live) steps ∧
      Narrows steps request.only p.steps := by
  rw [ofRequest, bind_eq_ok_iff]
  constructor
  · rintro ⟨q, hq, honly⟩
    obtain ⟨hmode, hplans⟩ := whole_eq_ok_iff.mp hq
    cases hrequest : request.only with
    | none =>
      rw [hrequest] at honly
      cases honly
      exact ⟨hmode, p.steps, hplans, .all⟩
    | some name =>
      rw [hrequest] at honly
      obtain ⟨hsame, hnarrows⟩ := (only_eq_ok_iff (nodup_whole hq)).mp honly
      rw [hsame]
      exact ⟨hmode, q.steps, hplans, hnarrows⟩
  · rintro ⟨hmode, steps, hplans, hnarrows⟩
    have hq : whole default request live = .ok ⟨p.mode, steps⟩ :=
      whole_eq_ok_iff.mpr ⟨hmode, hplans⟩
    refine ⟨_, hq, ?_⟩
    cases hrequest : request.only with
    | none =>
      rw [hrequest] at hnarrows
      obtain ⟨mode, kept⟩ := p
      cases hnarrows
      rfl
    | some name =>
      rw [hrequest] at hnarrows
      exact (only_eq_ok_iff (nodup_whole hq)).mpr ⟨rfl, hnarrows⟩

lemma ofRequest_eq_error_iff : ofRequest default request live = .error f ↔
    whole default request live = .error f ∨
    (∃ p, whole default request live = .ok p) ∧
      ∃ name, request.only = some name ∧ f = .notPlanned name ∧
        ∀ a ∈ asked default request live, a.1.name ≠ name := by
  have hnames {p : Plan} (hp : whole default request live = .ok p) (name : String) :
      name ∉ p.names ↔ ∀ a ∈ asked default request live, a.1.name ≠ name := by
    rw [names, names_of_plans (whole_eq_ok_iff.mp hp).2]
    simp
  rw [ofRequest, bind_eq_error_iff]
  refine or_congr_right ?_
  constructor
  · rintro ⟨p, hp, honly⟩
    refine ⟨⟨p, hp⟩, ?_⟩
    cases hrequest : request.only with
    | none =>
      rw [hrequest] at honly
      cases honly
    | some name =>
      rw [hrequest] at honly
      obtain ⟨hf, hnot⟩ := only_eq_error_iff.mp honly
      exact ⟨name, rfl, hf, (hnames hp name).mp hnot⟩
  · rintro ⟨⟨p, hp⟩, name, hrequest, hf, hnot⟩
    refine ⟨p, hp, ?_⟩
    rw [hrequest]
    exact only_eq_error_iff.mpr ⟨hf, (hnames hp name).mpr hnot⟩

/-- A request asks for no component twice, and planning comes to just what it asks for: the mode is
set by whether there is an event for a page that was sent before; every slot is planned with its own
event and its own bindings, in order; and the plan is narrowed down if one component is asked for
alone. Planning fails for the first binding that cannot be understood, of all the slots that are
asked for. If there is none, it fails if one component is asked for alone that is not among them,
and it does not fail otherwise. -/
theorem ofRequest_eq_asked (default : Page) (request : Request) (live : Page) :
    ((asked default request live).map fun a => a.1.name).Nodup ∧
    (∀ p, ofRequest default request live = .ok p ↔
      (p.mode = .affected ↔ ∃ page event, request.snapshot = some page ∧
        request.event = some event ∧ event.component ≠ "") ∧
      ∃ steps, Forall₂ Step.Plans (asked default request live) steps ∧
        Narrows steps request.only p.steps) ∧
    (∀ p, ofRequest default request live = .ok p → p.names.Nodup) ∧
    ∀ f, ofRequest default request live = .error f ↔
      (∃ before written after, ((asked default request live).flatMap fun a => a.1.bindings) =
          before ++ written :: after ∧
        (∀ b ∈ before, ∃ binding, Binding.ofWritten b = .ok binding) ∧
        Binding.ofWritten written = .error f) ∨
      (∀ a ∈ asked default request live, ∀ b ∈ a.1.bindings,
        ∃ binding, Binding.ofWritten b = .ok binding) ∧
      ∃ name, request.only = some name ∧ f = .notPlanned name ∧
        ∀ a ∈ asked default request live, a.1.name ≠ name := by
  refine ⟨nodup_asked, ?_, ?_, ?_⟩
  · intro p
    exact ofRequest_eq_ok_iff
  · intro p
    exact nodup_names_ofRequest
  · intro f
    rw [ofRequest_eq_error_iff, whole_eq_error_iff, exists_whole_iff]

/-- After an event its own component is not asked for again, and no other one twice. -/
example :
    let slots : List Slot := [{ name := "list" }, { name := "foot" }, { name := "foot" }]
    let page : Page := { rendering := .ofList [("list", slots)] }
    let request : Request :=
      { scenario := "news", snapshot := some page, event := some ⟨"list", "open", .empty⟩ }
    (asked {} request page).map (fun a => (a.1.name, a.2.operation)) =
      [("list", "open"), ("foot", "__Rendering__")] := by
  decide +kernel

end Plan

end PageRender
