import PageRender.Proofs.Pass.Step

/-!
# Renders that are successful

A render of a kind comes to a report only if every hook that it calls is successful. What the hooks
have come to, one after the other, is then all that the render has done: the component that it
leaves is the one that the kind has finished up, with its visibility recorded.
-/

namespace PageRender

section

variable {ε ω α β : Type} {w w' : ω} {b : β}

/-- Work that is put together of parts is successful if they are, one after the other. -/
lemma run_bind_eq_ok_iff {work : ExceptT ε (StateM ω) α} {next : α → ExceptT ε (StateM ω) β} :
    (work >>= next).run.run w = (.ok b, w') ↔
      ∃ a w₁, work.run.run w = (.ok a, w₁) ∧ (next a).run.run w₁ = (.ok b, w') := by
  rw [run_bind]
  constructor
  · intro h
    rcases hrun : work.run.run w with ⟨_ | a, w₁⟩ <;> rw [hrun] at h
    · cases h
    · exact ⟨a, w₁, rfl, h⟩
  · rintro ⟨a, w₁, hrun, h⟩
    rw [hrun]
    exact h

/-- Work that begins with a look at the state. -/
lemma run_bind_get {next : ω → ExceptT ε (StateM ω) β} :
    (get >>= next).run.run w = (next w).run.run w := by
  rw [run_bind]
  rfl

end

/-- A report comes of a run that is successful. -/
lemma Renderer.render_eq_ok_iff {r : Renderer} {input : Input} {bench bench' : Bench Component}
    {report : Report} : (r.render input).run.run bench = (.ok report, bench') ↔
      ∃ outcome, (r.run input).run.run bench = (.ok outcome, bench') ∧
        report = ⟨bench.subject.name, r.typeName, input.event.operation, outcome.visible,
          outcome.trace⟩ := by
  rw [Renderer.render, run_bind_get, run_bind_eq_ok_iff]
  constructor
  · rintro ⟨outcome, bench₁, hrun, hpure⟩
    cases hpure
    exact ⟨outcome, hrun, rfl⟩
  · rintro ⟨outcome, hrun, rfl⟩
    exact ⟨outcome, bench', hrun, rfl⟩

/-- The component with its extra entries flattened, if the kind or the component asks for it. -/
def Kind.flattened {M : Type} (kind : Kind M) (c : Component) : Component :=
  if kind.flattens || (c.flags.getD {}).flatExtra then
    (c.modifyData fun fields => fields.flattenExtra.1).modifyProps fun fields => fields.flattenExtra.1
  else c

/-- What becomes of a model: the operation runs on it if the component shows, and else nothing
does. -/
def Kind.Operates {M : Type} (kind : Kind M) (context : Context) (visible : Bool)
    (bench bench' : Bench M) : Prop :=
  if visible then (kind.dispatch context).run.run bench = (.ok (), bench') else bench' = bench

/-! ### Stages -/

namespace Attempt

variable {M : Type} {kind : Kind M} {name : String} {params : Fields} {context : Context}
  {model model' : M} {body body' : Body} {visible : Bool} {next : Stage} {work : Work M Unit} {u : Unit}

lemma advance_eq_ok_iff : (advance name next).run.run body = (.ok u, body') ↔
    body.trace.current.allows next = true ∧
      body' = { body with trace := ⟨body.trace.later ++ [next]⟩ } := by
  rw [advance, run_bind_get, Trace.advance]
  constructor
  · intro h
    split_ifs at h with hallows <;> cases h
    exact ⟨hallows, rfl⟩
  · rintro ⟨hallows, rfl⟩
    rw [if_pos hallows]
    rfl

lemma decode_eq_ok_iff : (decode kind name params).run.run body = (.ok model, body') ↔
    kind.decode kind.fresh body.component params = .ok model ∧ body' = body := by
  rw [decode, run_bind_get]
  constructor
  · intro h
    cases hdecode : kind.decode kind.fresh body.component params <;> rw [hdecode] at h <;> cases h
    exact ⟨rfl, rfl⟩
  · rintro ⟨hdecode, rfl⟩
    rw [hdecode]
    rfl

lemma judge_eq_ok_iff : (judge kind context model).run.run body = (.ok visible, body') ↔
    ∃ board, (kind.visible context model).run.run body.blackboard = (.ok visible, board) ∧
      body' = { body with blackboard := board, visible := some visible } := by
  rw [judge, run_bind_get]
  constructor
  · intro h
    rcases hrun : (kind.visible context model).run.run body.blackboard with ⟨_ | shown, board⟩ <;>
      rw [hrun] at h <;> cases h
    exact ⟨board, rfl, rfl⟩
  · rintro ⟨board, hrun, rfl⟩
    rw [hrun]
    rfl

lemma onModel_eq_ok_iff : (onModel work model).run.run body = (.ok model', body') ↔
    ∃ board, work.run.run ⟨model, body.blackboard⟩ = (.ok (), ⟨model', board⟩) ∧
      body' = { body with blackboard := board } := by
  rw [onModel, run_bind_get]
  constructor
  · intro h
    rcases hrun : work.run.run ⟨model, body.blackboard⟩ with ⟨_ | _, bench⟩ <;>
      rw [hrun] at h <;> cases h
    exact ⟨bench.blackboard, rfl, rfl⟩
  · rintro ⟨board, hrun, rfl⟩
    rw [hrun]
    rfl

lemma encode_eq_ok_iff : (encode kind name model).run.run body = (.ok u, body') ↔
    ∃ c, (kind.encode model).run.run body.component = (.ok (), c) ∧
      body' = { body with component := c } := by
  rw [encode, run_bind_get]
  constructor
  · intro h
    rcases hrun : (kind.encode model).run.run body.component with ⟨_ | _, c⟩ <;>
      rw [hrun] at h <;> cases h
    exact ⟨c, rfl, rfl⟩
  · rintro ⟨c, hrun, rfl⟩
    rw [hrun]
    rfl

lemma run_flatten : (flatten kind).run.run body =
    (.ok (), { body with component := kind.flattened body.component }) := by
  change (Except.ok (), if _ then _ else body) = _
  unfold Kind.flattened
  split <;> rfl

end Attempt

/-- The stage that follows decoding. -/
def Stage.ofVisible (visible : Bool) : Stage :=
  if visible then .operationHandled else .skipped

namespace Kind

variable {M : Type} {kind : Kind M} {name : String} {input : Input} {context : Context}
  {model model' : M} {body body' : Body} {bench bench' : Bench Component} {outcome : Outcome}

lemma operate_eq_ok_iff : (kind.operate context model).run.run body = (.ok model', body') ↔
    ∃ visible board board',
      (kind.visible context model).run.run body.blackboard = (.ok visible, board) ∧
      kind.Operates context visible ⟨model, board⟩ ⟨model', board'⟩ ∧
      body.trace.current.allows (.ofVisible visible) = true ∧
      body' = { body with
        blackboard := board'
        trace := ⟨body.trace.later ++ [.ofVisible visible]⟩
        visible := some visible } := by
  simp only [operate, run_bind_eq_ok_iff, Attempt.judge_eq_ok_iff]
  constructor
  · rintro ⟨visible, body₁, ⟨board, hvisible, rfl⟩, h⟩
    cases visible with
    | false =>
      obtain ⟨u, body₂, hadvance, hpure⟩ := run_bind_eq_ok_iff.mp h
      obtain ⟨hallows, rfl⟩ := Attempt.advance_eq_ok_iff.mp hadvance
      cases hpure
      exact ⟨false, board, board, hvisible, rfl, hallows, rfl⟩
    | true =>
      obtain ⟨model₁, body₂, hmodel, h⟩ := run_bind_eq_ok_iff.mp h
      obtain ⟨board', hdispatch, rfl⟩ := Attempt.onModel_eq_ok_iff.mp hmodel
      obtain ⟨u, body₃, hadvance, hpure⟩ := run_bind_eq_ok_iff.mp h
      obtain ⟨hallows, rfl⟩ := Attempt.advance_eq_ok_iff.mp hadvance
      cases hpure
      exact ⟨true, board, board', hvisible, hdispatch, hallows, rfl⟩
  · rintro ⟨visible, board, board', hvisible, hoperates, hallows, rfl⟩
    refine ⟨visible, _, ⟨board, hvisible, rfl⟩, ?_⟩
    cases visible with
    | false =>
      cases hoperates
      exact run_bind_eq_ok_iff.mpr ⟨(), _, Attempt.advance_eq_ok_iff.mpr ⟨hallows, rfl⟩, rfl⟩
    | true =>
      refine run_bind_eq_ok_iff.mpr
        ⟨model', _, Attempt.onModel_eq_ok_iff.mpr ⟨board', hoperates, rfl⟩, ?_⟩
      exact run_bind_eq_ok_iff.mpr ⟨(), _, Attempt.advance_eq_ok_iff.mpr ⟨hallows, rfl⟩, rfl⟩

/-- The first part of a render, from its beginning. -/
lemma attempt_eq_ok_iff (htrace : body.trace = {}) :
    (kind.attempt name input).run.run body = (.ok (), body') ↔
      ∃ model visible board bench c,
        kind.decode kind.fresh body.component input.params = .ok model ∧
        (kind.visible (input.context name) model).run.run body.blackboard = (.ok visible, board) ∧
        kind.Operates (input.context name) visible ⟨model, board⟩ bench ∧
        (kind.encode bench.subject).run.run body.component = (.ok (), c) ∧
        body' = ⟨kind.flattened c, bench.blackboard,
          ⟨[.decoded, .ofVisible visible, .encoded]⟩, some visible⟩ := by
  obtain ⟨component, blackboard, trace, shown⟩ := body
  subst htrace
  simp only [attempt, run_bind_eq_ok_iff, Attempt.decode_eq_ok_iff, Attempt.advance_eq_ok_iff,
    operate_eq_ok_iff, Attempt.encode_eq_ok_iff, Attempt.run_flatten]
  constructor
  · rintro ⟨model, _, ⟨hdecode, rfl⟩, _, _, ⟨-, rfl⟩, model', _,
      ⟨visible, board, board', hvisible, hoperates, -, rfl⟩, _, _, ⟨c, hencode, rfl⟩, _, _, hflat, -,
      rfl⟩
    cases hflat
    exact ⟨model, visible, board, ⟨model', board'⟩, c, hdecode, hvisible, hoperates, hencode, rfl⟩
  · rintro ⟨model, visible, board, ⟨model', board'⟩, c, hdecode, hvisible, hoperates, hencode, rfl⟩
    refine ⟨model, _, ⟨hdecode, rfl⟩, (), _, ⟨rfl, rfl⟩, model', _,
      ⟨visible, board, board', hvisible, hoperates, ?_, rfl⟩, (), _, ⟨c, hencode, rfl⟩, (), _, rfl,
      ?_, rfl⟩
    · cases visible <;> rfl
    · cases visible <;> rfl

lemma conclude_eq_ok_iff : (kind.conclude name input).run.run body = (.ok (), body') ↔
    ∃ bench, (kind.finish (input.context name)).run.run ⟨body.component, body.blackboard⟩ =
      (.ok (), bench) ∧ body' = { body with
        component := match body.visible with
          | some visible => bench.subject.setVisible visible
          | none => bench.subject
        blackboard := bench.blackboard } := by
  rw [conclude, run_bind_get]
  constructor
  · intro h
    rcases hrun : (kind.finish (input.context name)).run.run ⟨body.component, body.blackboard⟩ with
      ⟨(_ | _) | _, bench⟩ <;> rw [hrun] at h <;> cases h
    exact ⟨bench, rfl, rfl⟩
  · rintro ⟨bench, hrun, rfl⟩
    rw [hrun]
    rfl

lemma lifecycle_eq_ok_iff : (kind.lifecycle name input).run.run body = (.ok (), body') ↔
    ∃ body₁ body₂, (kind.attempt name input).run.run body = (.ok (), body₁) ∧
      (kind.conclude name input).run.run body₁ = (.ok (), body₂) ∧
      (Attempt.advance name .finalized).run.run body₂ = (.ok (), body') := by
  change kind.lifecycle name input body = _ ↔ _
  unfold lifecycle
  constructor
  · intro h
    rcases hattempt : (kind.attempt name input).run.run body with ⟨(f | p) | _, body₁⟩ <;>
      rw [hattempt] at h
    · dsimp only at h
      rcases hconclude : (kind.conclude name input).run.run body₁ with ⟨(_ | _) | _, body₂⟩ <;>
        rw [hconclude] at h <;> cases h
    · cases h
    · obtain ⟨_, body₂, hconclude, hadvance⟩ := run_bind_eq_ok_iff.mp h
      exact ⟨body₁, body₂, rfl, hconclude, hadvance⟩
  · rintro ⟨body₁, body₂, hattempt, hconclude, hadvance⟩
    rw [hattempt]
    exact run_bind_eq_ok_iff.mpr ⟨(), body₂, hconclude, hadvance⟩

/-- The renderer of a kind comes to what the lifecycle has come to. -/
lemma run_renderer {result : Except Halt Unit}
    (h : (kind.lifecycle bench.subject.name input).run.run
      ⟨bench.subject.normalize, bench.blackboard, {}, none⟩ = (result, body)) :
    (kind.renderer.run input).run.run bench =
      (result.map fun _ => ⟨body.visible.getD false, body.trace⟩,
        ⟨body.component, body.blackboard⟩) := by
  have hrun : (kind.renderer.run input).run.run bench =
      (fun ended : Except Halt Unit × Body =>
        (ended.1.map fun _ => Outcome.mk (ended.2.visible.getD false) ended.2.trace,
          Bench.mk ended.2.component ended.2.blackboard))
        ((kind.lifecycle bench.subject.name input).run.run
          ⟨bench.subject.normalize, bench.blackboard, {}, none⟩) := rfl
  rw [hrun, h]

/-- A render of a kind is successful if all its hooks are, each of them on what those before it have
left. The component is then as it has been finished up, with its visibility recorded. -/
theorem run_renderer_eq_ok_iff : (kind.renderer.run input).run.run bench = (.ok outcome, bench') ↔
    ∃ model board modelBench c componentBench,
      kind.decode kind.fresh bench.subject.normalize input.params = .ok model ∧
      (kind.visible (input.context bench.subject.name) model).run.run bench.blackboard =
        (.ok outcome.visible, board) ∧
      kind.Operates (input.context bench.subject.name) outcome.visible ⟨model, board⟩ modelBench ∧
      (kind.encode modelBench.subject).run.run bench.subject.normalize = (.ok (), c) ∧
      (kind.finish (input.context bench.subject.name)).run.run
        ⟨kind.flattened c, modelBench.blackboard⟩ = (.ok (), componentBench) ∧
      outcome.trace = ⟨[.decoded, .ofVisible outcome.visible, .encoded, .finalized]⟩ ∧
      bench' = ⟨componentBench.subject.setVisible outcome.visible, componentBench.blackboard⟩ := by
  constructor
  · intro h
    rcases hlifecycle : (kind.lifecycle bench.subject.name input).run.run
      ⟨bench.subject.normalize, bench.blackboard, {}, none⟩ with ⟨_ | _, body⟩ <;>
      rw [run_renderer hlifecycle] at h <;> cases h
    obtain ⟨body₁, body₂, hattempt, hconclude, hadvance⟩ := lifecycle_eq_ok_iff.mp hlifecycle
    obtain ⟨model, visible, board, modelBench, c, hdecode, hvisible, hoperates, hencode, rfl⟩ :=
      (attempt_eq_ok_iff rfl).mp hattempt
    obtain ⟨componentBench, hfinish, rfl⟩ := conclude_eq_ok_iff.mp hconclude
    obtain ⟨-, rfl⟩ := Attempt.advance_eq_ok_iff.mp hadvance
    exact ⟨model, board, modelBench, c, componentBench, hdecode, hvisible, hoperates, hencode,
      hfinish, rfl, rfl⟩
  · rintro ⟨model, board, modelBench, c, componentBench, hdecode, hvisible, hoperates, hencode,
      hfinish, htrace, rfl⟩
    obtain ⟨visible, trace⟩ := outcome
    dsimp only at htrace
    subst htrace
    have hattempt : (kind.attempt bench.subject.name input).run.run
        ⟨bench.subject.normalize, bench.blackboard, {}, none⟩ = (.ok (), _) :=
      (attempt_eq_ok_iff rfl).mpr
        ⟨model, visible, board, modelBench, c, hdecode, hvisible, hoperates, hencode, rfl⟩
    have hlifecycle := lifecycle_eq_ok_iff.mpr ⟨_, _, hattempt,
      conclude_eq_ok_iff.mpr ⟨componentBench, hfinish, rfl⟩,
      Attempt.advance_eq_ok_iff.mpr ⟨rfl, rfl⟩⟩
    rw [run_renderer hlifecycle]
    rfl

end Kind

end PageRender
