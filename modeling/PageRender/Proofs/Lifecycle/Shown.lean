import PageRender.Kind.Plain
import PageRender.Proofs.Lifecycle.Course

/-!
# Whether a component shows

What a kind says about whether a component shows settles which stages a render goes through, and what
is reported and written down at the end. A component that does not show gets no operation, so that
nothing depends on what its operations are. Whatever the kind does, each stage may follow the one
before it.
-/

namespace PageRender

lemma Component.visible_setVisible (c : Component) (visible : Bool) :
    (c.setVisible visible).flags.map Flags.visible = some visible := rfl

/-- A transition that is refused is an internal fault. -/
lemma Trace.exists_internal_of_advance {t : Trace} {name : String} {next : Stage} {f : Fault}
    (h : t.advance name next = .error f) : ∃ text, f = .internal text := by
  unfold advance at h
  split_ifs at h
  cases h
  exact ⟨_, rfl⟩

/-- A hook whose faults are reported as they are has come to a fault. -/
inductive Kind.Raises {M : Type} (kind : Kind M) (context : Context) (f : Fault) : Prop
  | before {bench bench' : Bench M}
      (h : (kind.before context).run.run bench = (.error (.fault f), bench'))
  | operation {handler : Handler M} {bench bench' : Bench M}
      (hhandler : kind.table.get? context.operation = some handler)
      (h : (handler context).run.run bench = (.error (.fault f), bench'))
  | after {bench bench' : Bench M}
      (h : (kind.after context).run.run bench = (.error (.fault f), bench'))
  | finish {bench bench' : Bench Component}
      (h : (kind.finish context).run.run bench = (.error (.fault f), bench'))

namespace Kind

variable {M : Type} {kind : Kind M} {name : String} {input : Input} {context : Context}
  {visible : Bool} {c : Component} {board board₁ : Blackboard} {hooks : List Hook}
  {shown : Option Bool} {model : M} {bench bench' : Bench M} {result : Except Halt Unit}
  {left after : Bench Component} {report : Except Halt Report} {f : Fault}

/-! ### Where a fault comes from -/

lemma Operated.raises
    (h : kind.Operated context bench visible hooks (.error (.fault f)) bench') :
    f = .noOperation context.component context.operation ∨ kind.Raises context f := by
  cases h with
  | before hbefore => exact Or.inr (.before hbefore)
  | unknown => exact Or.inl rfl
  | operation _ hhandler hoperation => exact Or.inr (.operation hhandler hoperation)
  | after _ _ _ hafter => exact Or.inr (.after hafter)

lemma Attempted.raises
    (h : kind.Attempted name input c board hooks shown (.error (.fault f)) left) :
    (∃ component reason, f = .codec component reason) ∨
      f = .noOperation name input.event.operation ∨ kind.Raises (input.context name) f := by
  cases h with
  | undecoded _ hrecoded =>
    cases hrecoded with
    | codec => exact Or.inl ⟨_, _, rfl⟩
    | fault => exact Or.inl ⟨_, _, rfl⟩
  | unhandled _ _ hoperated => exact Or.inr hoperated.raises
  | unencoded _ _ _ _ hrecoded =>
    cases hrecoded with
    | codec => exact Or.inl ⟨_, _, rfl⟩
    | fault => exact Or.inl ⟨_, _, rfl⟩

/-- A fault comes of the first part, or else of finishing up. -/
lemma Rendered.exists_of_fault (h : kind.Rendered input c board hooks report after)
    (hreport : report = .error (.fault f)) : ∃ hooks' visible result left,
      kind.Attempted c.name input c.normalize board hooks' visible result left ∧
      (result = .error (.fault f) ∨ result = .ok () ∧
        ∃ bench, (kind.finish (input.context c.name)).run.run left = (.error (.fault f), bench)) := by
  cases h with
  | broken => cases hreport
  | unfinished => cases hreport
  | @finished hooks shown result ended left bench hattempted hresult hfinish hended =>
    refine ⟨hooks, shown, result, left, hattempted, ?_⟩
    cases result with
    | error halt =>
      cases hreport
      exact Or.inl rfl
    | ok _ =>
      cases ended with
      | error halt =>
        cases hreport
        exact Or.inr ⟨rfl, bench, hfinish⟩
      | ok _ => cases hreport

/-! ### What operations have no part in -/

section

variable {before onOpen onRefresh after' : Handler M} {operations : Operations M}

/-- If a component does not show, its render is the same whatever its operations are. -/
lemma Rendered.withOperations (h : kind.Rendered input c board hooks report after)
    (hdecode : kind.decode kind.fresh c.normalize input.params = .ok model)
    (hvisible : (kind.visible (input.context c.name) model).run.run board = (.ok false, board₁)) :
    { kind with before, operations, onOpen, onRefresh, after := after' }.Rendered input c board hooks
      report after := by
  refine h.exchange fun h => h.exchange fun hdecode' hvisible' hoperated => ?_
  cases hdecode.symm.trans hdecode'
  cases hvisible.symm.trans hvisible'
  cases hoperated
  exact .hidden

end

/-- If a render is successful, the kind has said whether the component shows; the stages are those
that belong to that, it is reported, and it is written down whatever encoding and finishing up have
written there. If the component does not show, its operations may be any others or none at all: the
render comes to the same, since the model is encoded just as it was decoded. And if any render comes
to a fault, it is that of the first part or else of finishing up, as the hooks have come to it, so
that a fault of a refused transition could only be one that a hook has raised itself. -/
theorem visible_settles_render (kind : Kind M) (input : Input) (c : Component)
    (board : Blackboard) :
    (∀ report after, (kind.renderer.render input).run.run ⟨c, board⟩ = (.ok report, after) →
      (∃ model board₁, kind.decode kind.fresh c.normalize input.params = .ok model ∧
        (kind.visible (input.context c.name) model).run.run board = (.ok report.visible, board₁)) ∧
      report.trace.stages = [.uninitialized, .decoded,
        if report.visible then .operationHandled else .skipped, .encoded, .finalized] ∧
      after.subject.flags.map Flags.visible = some report.visible) ∧
    (∀ model board₁, kind.decode kind.fresh c.normalize input.params = .ok model →
      (kind.visible (input.context c.name) model).run.run board = (.ok false, board₁) →
      (∀ before operations onOpen onRefresh after,
        ({ kind with before, operations, onOpen, onRefresh, after }.renderer.render input).run.run
          ⟨c, board⟩ = (kind.renderer.render input).run.run ⟨c, board⟩) ∧
      ∀ report after, (kind.renderer.render input).run.run ⟨c, board⟩ = (.ok report, after) ↔
        ∃ encoded finished,
          (kind.encode model).run.run c.normalize = (.ok (), encoded) ∧
          (kind.finish (input.context c.name)).run.run ⟨kind.flattened encoded, board₁⟩ =
            (.ok (), finished) ∧
          report = kind.reportOf c.name input false ∧
          after = ⟨finished.subject.setVisible false, finished.blackboard⟩) ∧
    ∀ f after, (kind.renderer.render input).run.run ⟨c, board⟩ = (.error (.fault f), after) →
      (∃ hooks visible result left,
        kind.Attempted c.name input c.normalize board hooks visible result left ∧
        (result = .error (.fault f) ∨ result = .ok () ∧
          ∃ bench, (kind.finish (input.context c.name)).run.run left = (.error (.fault f), bench))) ∧
      ∀ (trace : Trace) next, trace.advance c.name next = .error f →
        kind.Raises (input.context c.name) f := by
  refine ⟨?_, ?_, ?_⟩
  · intro report after hrender
    obtain ⟨outcome, hrun, rfl⟩ := Renderer.render_eq_ok_iff.mp hrender
    obtain ⟨model, board₁, _, _, _, hdecode, hvisible, -, -, -, htrace, rfl⟩ :=
      run_renderer_eq_ok_iff.mp hrun
    refine ⟨⟨model, board₁, hdecode, hvisible⟩, ?_, Component.visible_setVisible _ _⟩
    dsimp only
    rw [htrace]
    rfl
  · intro model board₁ hdecode hvisible
    refine ⟨fun before operations onOpen onRefresh after => ?_, fun report after => ?_⟩
    · obtain ⟨hooks, report, left, hrendered⟩ := kind.exists_rendered input c board
      rw [hrendered.run, (hrendered.withOperations hdecode hvisible).run]
    · exact render_eq_ok_iff_of_operates hdecode hvisible rfl
  · intro f after hrender
    obtain ⟨hooks, hrendered⟩ := exists_rendered_iff.mpr hrender
    obtain ⟨hooks', visible, result, left, hattempted, hfault⟩ := hrendered.exists_of_fault rfl
    refine ⟨⟨hooks', visible, result, left, hattempted, hfault⟩, fun trace next hrefused => ?_⟩
    obtain ⟨text, rfl⟩ := Trace.exists_internal_of_advance hrefused
    rcases hfault with rfl | ⟨-, bench, hfinish⟩
    · rcases hattempted.raises with ⟨_, _, hcodec⟩ | hunknown | hraises
      · cases hcodec
      · cases hunknown
      · exact hraises
    · exact .finish hfinish

/-- The kind of components that never show, that refuse every operation, and that write down at the
end that they show. -/
def shy : Kind Fields :=
  { Kind.stateOnly "shy" with
    visible := fun _ _ => pure false
    before := fun _ => Work.refuse (.internal "refused")
    finish := fun _ => Work.change (·.setVisible true) }

/-- A component that does not show is rendered with an operation that is not there, and it is written
down that it does not show. -/
theorem visible_settles_render_shy :
    let c := Component.ofType "list" "shy"
    let input : Input := { event := ⟨"list", "click", .empty⟩ }
    Kind.shy.table.get? "click" = none ∧ ∃ report after,
      (Kind.shy.renderer.render input).run.run ⟨c, .empty⟩ = (.ok report, after) ∧
      report.visible = false ∧
      report.trace.stages = [.uninitialized, .decoded, .skipped, .encoded, .finalized] ∧
      after.subject.flags.map Flags.visible = some false := by
  intro c input
  obtain ⟨hok, hhidden, -⟩ := visible_settles_render Kind.shy input c .empty
  obtain ⟨-, hrender⟩ := hhidden _ _ rfl rfl
  have hrendered := (hrender _ _).mpr ⟨_, _, rfl, rfl, rfl, rfl⟩
  obtain ⟨-, htrace, hflags⟩ := hok _ _ hrendered
  exact ⟨by decide, _, _, hrendered, rfl, htrace, hflags⟩

end Kind

end PageRender
