import PageRender.Proofs.Lifecycle.Success

/-!
# The course of a render

Which hooks of a kind a render calls, what each of them is given, and how the render ends. Every way
in which it may halt has a case of its own. The stages that are gone through have none: no
transition between them is ever refused, so that only hooks can make a render halt, and an event
whose operation is not there.
-/

namespace PageRender

/-- What a render may call of a kind. -/
inductive Hook
  | decode
  | visible
  | before
  | operation
  | after
  | encode
  | finish
deriving DecidableEq

/-- How a halt in decoding or encoding is reported: a fault of the codec as it is, and any other
fault as one of the codec that has its text. -/
inductive Halt.Recoded (component : String) : Halt → Halt → Prop
  | codec (c reason : String) :
      Recoded component (.fault (.codec c reason)) (.fault (.codec c reason))
  | fault {f : Fault} (h : ∀ c reason, f ≠ .codec c reason) :
      Recoded component (.fault f) (.fault (.codec component f.message))
  | panic (p : Panic) : Recoded component (.panic p) (.panic p)

/-- Write down whether a component shows, if that is known. -/
def Component.record (c : Component) : Option Bool → Component
  | some visible => c.setVisible visible
  | none => c

namespace Kind

variable {M : Type}

/-- How a successful render of a component is reported. -/
def reportOf (kind : Kind M) (name : String) (input : Input) (visible : Bool) : Report :=
  ⟨name, kind.name, input.event.operation, visible,
    ⟨[.decoded, .ofVisible visible, .encoded, .finalized]⟩⟩

/-- What is done to a model, depending on whether the component shows. -/
inductive Operated (kind : Kind M) (context : Context) (bench : Bench M) :
    Bool → List Hook → Except Halt Unit → Bench M → Prop
  | hidden : Operated kind context bench false [] (.ok ()) bench
  | before {halt : Halt} {bench' : Bench M}
      (hbefore : (kind.before context).run.run bench = (.error halt, bench')) :
      Operated kind context bench true [.before] (.error halt) bench'
  | unknown {bench' : Bench M}
      (hbefore : (kind.before context).run.run bench = (.ok (), bench'))
      (hnone : kind.table.get? context.operation = none) :
      Operated kind context bench true [.before]
        (.error (.fault (.noOperation context.component context.operation))) bench'
  | operation {handler : Handler M} {bench₁ bench' : Bench M} {halt : Halt}
      (hbefore : (kind.before context).run.run bench = (.ok (), bench₁))
      (hhandler : kind.table.get? context.operation = some handler)
      (hoperation : (handler context).run.run bench₁ = (.error halt, bench')) :
      Operated kind context bench true [.before, .operation] (.error halt) bench'
  | after {handler : Handler M} {bench₁ bench₂ bench' : Bench M} {result : Except Halt Unit}
      (hbefore : (kind.before context).run.run bench = (.ok (), bench₁))
      (hhandler : kind.table.get? context.operation = some handler)
      (hoperation : (handler context).run.run bench₁ = (.ok (), bench₂))
      (hafter : (kind.after context).run.run bench₂ = (result, bench')) :
      Operated kind context bench true [.before, .operation, .after] result bench'

/-- What comes of a component and of the blackboard before the kind finishes up. -/
inductive Attempted (kind : Kind M) (name : String) (input : Input) (c : Component)
    (board : Blackboard) :
    List Hook → Option Bool → Except Halt Unit → Bench Component → Prop
  | undecoded {halt halt' : Halt}
      (hdecode : kind.decode kind.fresh c input.params = .error halt)
      (hrecoded : halt.Recoded name halt') :
      Attempted kind name input c board [.decode] none (.error halt') ⟨c, board⟩
  | unjudged {model : M} {p : Panic} {board' : Blackboard}
      (hdecode : kind.decode kind.fresh c input.params = .ok model)
      (hvisible : (kind.visible (input.context name) model).run.run board = (.error p, board')) :
      Attempted kind name input c board [.decode, .visible] none (.error (.panic p)) ⟨c, board'⟩
  | unhandled {model : M} {visible : Bool} {board₁ : Blackboard} {hooks : List Hook} {halt : Halt}
      {bench : Bench M}
      (hdecode : kind.decode kind.fresh c input.params = .ok model)
      (hvisible : (kind.visible (input.context name) model).run.run board = (.ok visible, board₁))
      (hoperated : kind.Operated (input.context name) ⟨model, board₁⟩ visible hooks (.error halt)
        bench) :
      Attempted kind name input c board (.decode :: .visible :: hooks) (some visible) (.error halt)
        ⟨c, bench.blackboard⟩
  | unencoded {model : M} {visible : Bool} {board₁ : Blackboard} {hooks : List Hook}
      {bench : Bench M} {halt halt' : Halt} {c' : Component}
      (hdecode : kind.decode kind.fresh c input.params = .ok model)
      (hvisible : (kind.visible (input.context name) model).run.run board = (.ok visible, board₁))
      (hoperated : kind.Operated (input.context name) ⟨model, board₁⟩ visible hooks (.ok ()) bench)
      (hencode : (kind.encode bench.subject).run.run c = (.error halt, c'))
      (hrecoded : halt.Recoded name halt') :
      Attempted kind name input c board (.decode :: .visible :: (hooks ++ [.encode]))
        (some visible) (.error halt') ⟨c', bench.blackboard⟩
  | complete {model : M} {visible : Bool} {board₁ : Blackboard} {hooks : List Hook}
      {bench : Bench M} {c' : Component}
      (hdecode : kind.decode kind.fresh c input.params = .ok model)
      (hvisible : (kind.visible (input.context name) model).run.run board = (.ok visible, board₁))
      (hoperated : kind.Operated (input.context name) ⟨model, board₁⟩ visible hooks (.ok ()) bench)
      (hencode : (kind.encode bench.subject).run.run c = (.ok (), c')) :
      Attempted kind name input c board (.decode :: .visible :: (hooks ++ [.encode]))
        (some visible) (.ok ()) ⟨kind.flattened c', bench.blackboard⟩

/-- What comes of a render. After a panic the kind does not finish up, and if it panics while it
finishes up, it is not written down whether the component shows. -/
inductive Rendered (kind : Kind M) (input : Input) (c : Component) (board : Blackboard) :
    List Hook → Except Halt Report → Bench Component → Prop
  | broken {hooks : List Hook} {visible : Option Bool} {p : Panic} {left : Bench Component}
      (hattempted : kind.Attempted c.name input c.normalize board hooks visible (.error (.panic p))
        left) :
      Rendered kind input c board hooks (.error (.panic p)) left
  | unfinished {hooks : List Hook} {visible : Option Bool} {result : Except Halt Unit} {p : Panic}
      {left bench : Bench Component}
      (hattempted : kind.Attempted c.name input c.normalize board hooks visible result left)
      (hresult : ∀ p, result ≠ .error (.panic p))
      (hfinish : (kind.finish (input.context c.name)).run.run left = (.error (.panic p), bench)) :
      Rendered kind input c board (hooks ++ [.finish]) (.error (.panic p)) bench
  | finished {hooks : List Hook} {visible : Option Bool} {result ended : Except Halt Unit}
      {left bench : Bench Component}
      (hattempted : kind.Attempted c.name input c.normalize board hooks visible result left)
      (hresult : ∀ p, result ≠ .error (.panic p))
      (hfinish : (kind.finish (input.context c.name)).run.run left = (ended, bench))
      (hended : ∀ p, ended ≠ .error (.panic p)) :
      Rendered kind input c board (hooks ++ [.finish])
        (result.bind fun _ => ended.map fun _ => kind.reportOf c.name input (visible.getD false))
        ⟨bench.subject.record visible, bench.blackboard⟩

end Kind

/-! ### The first part of a render -/

namespace Attempt

variable {M : Type} {kind : Kind M} {name : String} {params : Fields} {context : Context} {model : M}
  {body : Body} {visible : Bool} {halt halt' : Halt} {p : Panic} {board : Blackboard}
  {work : Work M Unit} {result : Except Halt Unit} {bench : Bench M} {c : Component}

lemma exists_recoded (name : String) (halt : Halt) : ∃ halt', halt.Recoded name halt' := by
  rcases halt with f | p
  · by_cases hcodec : ∃ c reason, f = .codec c reason
    · obtain ⟨c, reason, rfl⟩ := hcodec
      exact ⟨_, .codec c reason⟩
    · simp only [not_exists] at hcodec
      exact ⟨_, .fault hcodec⟩
  · exact ⟨_, .panic p⟩

lemma codecHalt_of_recoded (h : halt.Recoded name halt') : codecHalt name halt = halt' := by
  cases h with
  | codec c reason => rfl
  | panic p => rfl
  | @fault f hcodec =>
    cases f with
    | codec c reason => exact absurd rfl (hcodec c reason)
    | _ => rfl

lemma run_decode_of_error (hdecode : kind.decode kind.fresh body.component params = .error halt)
    (hrecoded : halt.Recoded name halt') :
    (decode kind name params).run.run body = (.error halt', body) := by
  rw [decode, run_bind_get, hdecode, ← codecHalt_of_recoded hrecoded]
  rfl

lemma run_judge_of_error
    (hvisible : (kind.visible context model).run.run body.blackboard = (.error p, board)) :
    (judge kind context model).run.run body =
      (.error (.panic p), { body with blackboard := board }) := by
  rw [judge, run_bind_get, hvisible]
  rfl

lemma run_onModel (hwork : work.run.run ⟨model, body.blackboard⟩ = (result, bench)) :
    (onModel work model).run.run body =
      (result.map fun _ => bench.subject, { body with blackboard := bench.blackboard }) := by
  rw [onModel, run_bind_get, hwork]
  cases result <;> rfl

lemma run_encode_of_error (hencode : (kind.encode model).run.run body.component = (.error halt, c))
    (hrecoded : halt.Recoded name halt') :
    (encode kind name model).run.run body = (.error halt', { body with component := c }) := by
  rw [encode, run_bind_get, hencode, ← codecHalt_of_recoded hrecoded]
  rfl

end Attempt

namespace Kind

variable {M : Type} {kind : Kind M} {name : String} {input : Input} {context : Context} {model : M}
  {visible : Bool} {c : Component} {board board₁ : Blackboard} {hooks : List Hook}
  {shown : Option Bool} {bench bench' : Bench M} {result : Except Halt Unit} {halt : Halt}
  {left : Bench Component}

/-- Whatever the hooks are, something is done to the model. -/
lemma exists_operated (kind : Kind M) (context : Context) (bench : Bench M) (visible : Bool) :
    ∃ hooks result bench', kind.Operated context bench visible hooks result bench' := by
  cases visible with
  | false => exact ⟨_, _, _, .hidden⟩
  | true =>
    rcases hbefore : (kind.before context).run.run bench with ⟨halt | _, bench₁⟩
    · exact ⟨_, _, _, .before hbefore⟩
    · cases hhandler : kind.table.get? context.operation with
      | none => exact ⟨_, _, _, .unknown hbefore hhandler⟩
      | some handler =>
        rcases hoperation : (handler context).run.run bench₁ with ⟨halt | _, bench₂⟩
        · exact ⟨_, _, _, .operation hbefore hhandler hoperation⟩
        · exact ⟨_, _, _, .after hbefore hhandler hoperation rfl⟩

/-- Whatever the hooks are, there is a course of the first part of a render. -/
lemma exists_attempted (kind : Kind M) (name : String) (input : Input) (c : Component)
    (board : Blackboard) :
    ∃ hooks visible result left, kind.Attempted name input c board hooks visible result left := by
  cases hdecode : kind.decode kind.fresh c input.params with
  | error halt =>
    obtain ⟨halt', hrecoded⟩ := Attempt.exists_recoded name halt
    exact ⟨_, _, _, _, .undecoded hdecode hrecoded⟩
  | ok model =>
    rcases hvisible : (kind.visible (input.context name) model).run.run board with
      ⟨p | visible, board₁⟩
    · exact ⟨_, _, _, _, .unjudged hdecode hvisible⟩
    · obtain ⟨hooks, halt | _, bench, hoperated⟩ :=
        kind.exists_operated (input.context name) ⟨model, board₁⟩ visible
      · exact ⟨_, _, _, _, .unhandled hdecode hvisible hoperated⟩
      · rcases hencode : (kind.encode bench.subject).run.run c with ⟨halt | _, c'⟩
        · obtain ⟨halt', hrecoded⟩ := Attempt.exists_recoded name halt
          exact ⟨_, _, _, _, .unencoded hdecode hvisible hoperated hencode hrecoded⟩
        · exact ⟨_, _, _, _, .complete hdecode hvisible hoperated hencode⟩

namespace Operated

lemma run_dispatch (h : kind.Operated context bench true hooks result bench') :
    (kind.dispatch context).run.run bench = (result, bench') := by
  rw [dispatch, run_bind]
  cases h with
  | before hbefore => rw [hbefore]
  | unknown hbefore hnone =>
    rw [hbefore]
    dsimp only
    rw [hnone, run_bind]
    rfl
  | operation hbefore hhandler hoperation =>
    rw [hbefore]
    dsimp only
    rw [hhandler, run_bind, hoperation]
  | after hbefore hhandler hoperation hafter =>
    rw [hbefore]
    dsimp only
    rw [hhandler, run_bind, hoperation]
    exact hafter

lemma operates (h : kind.Operated context bench visible hooks (.ok ()) bench') :
    kind.Operates context visible bench bench' := by
  cases visible with
  | false =>
    cases h
    rfl
  | true => exact h.run_dispatch

/-- A component that does not show cannot make a render halt. -/
lemma visible_of_error (h : kind.Operated context bench visible hooks (.error halt) bench') :
    visible = true := by
  cases h <;> rfl

/-- The hooks that work on the model are called in this order. -/
lemma sublist (h : kind.Operated context bench visible hooks result bench') :
    hooks.Sublist [.before, .operation, .after] := by
  cases h <;> decide

end Operated

/-- Once the model has been decoded there is only one way on, up to what is done to it. -/
lemma run_attempt_of_decode (hdecode : kind.decode kind.fresh c input.params = .ok model) :
    (kind.attempt name input).run.run ⟨c, board, {}, none⟩ =
      (kind.operate (input.context name) model >>= fun model => do
        Attempt.encode kind name model
        Attempt.flatten kind
        Attempt.advance name .encoded).run.run ⟨c, board, ⟨[.decoded]⟩, none⟩ := by
  have hdecoded : (Attempt.decode kind name input.params).run.run ⟨c, board, {}, none⟩ =
      (.ok model, ⟨c, board, {}, none⟩) := Attempt.decode_eq_ok_iff.mpr ⟨hdecode, rfl⟩
  rw [attempt, run_bind, hdecoded]
  rfl

namespace Attempted

lemma run_of_ok (h : kind.Attempted name input c board hooks shown (.ok ()) left) :
    (kind.attempt name input).run.run ⟨c, board, {}, none⟩ = (.ok (), ⟨left.subject, left.blackboard,
      ⟨[.decoded, .ofVisible (shown.getD false), .encoded]⟩, shown⟩) := by
  cases h with
  | complete hdecode hvisible hoperated hencode =>
    exact (attempt_eq_ok_iff rfl).mpr
      ⟨_, _, _, _, _, hdecode, hvisible, hoperated.operates, hencode, rfl⟩

/-- The first part of a render takes its course. -/
lemma run (h : kind.Attempted name input c board hooks shown result left) : ∃ trace,
    (kind.attempt name input).run.run ⟨c, board, {}, none⟩ =
      (result, ⟨left.subject, left.blackboard, trace, shown⟩) := by
  cases h with
  | undecoded hdecode hrecoded =>
    rw [attempt, run_bind, Attempt.run_decode_of_error hdecode hrecoded]
    exact ⟨_, rfl⟩
  | unjudged hdecode hvisible =>
    rw [run_attempt_of_decode hdecode, run_bind, operate, run_bind, Attempt.run_judge_of_error hvisible]
    exact ⟨_, rfl⟩
  | @unhandled model visible board₁ _ halt bench hdecode hvisible hoperated =>
    cases hoperated.visible_of_error
    have hjudge : (Attempt.judge kind (input.context name) model).run.run
        ⟨c, board, ⟨[.decoded]⟩, none⟩ = (.ok true, ⟨c, board₁, ⟨[.decoded]⟩, some true⟩) :=
      Attempt.judge_eq_ok_iff.mpr ⟨board₁, hvisible, rfl⟩
    rw [run_attempt_of_decode hdecode, run_bind, operate, run_bind, hjudge]
    dsimp only
    rw [if_pos rfl, run_bind, Attempt.run_onModel hoperated.run_dispatch]
    exact ⟨_, rfl⟩
  | @unencoded model visible board₁ _ bench _ _ _ hdecode hvisible hoperated hencode hrecoded =>
    have hoperate : (kind.operate (input.context name) model).run.run
        ⟨c, board, ⟨[.decoded]⟩, none⟩ = (.ok bench.subject,
          ⟨c, bench.blackboard, ⟨[.decoded, .ofVisible visible]⟩, some visible⟩) :=
      operate_eq_ok_iff.mpr ⟨visible, board₁, bench.blackboard, hvisible, hoperated.operates,
        by cases visible <;> rfl, rfl⟩
    rw [run_attempt_of_decode hdecode, run_bind, hoperate]
    dsimp only
    rw [run_bind, Attempt.run_encode_of_error hencode hrecoded]
    exact ⟨_, rfl⟩
  | complete hdecode hvisible hoperated hencode =>
    exact ⟨_, (complete hdecode hvisible hoperated hencode).run_of_ok⟩

/-- The hooks of the first part are called in this order, each of them once at most. -/
lemma sublist (h : kind.Attempted name input c board hooks shown result left) :
    hooks.Sublist [.decode, .visible, .before, .operation, .after, .encode] := by
  cases h with
  | undecoded => decide
  | unjudged => decide
  | unhandled _ _ hoperated =>
    have hshort := hoperated.sublist.trans (List.sublist_append_left _ [.encode])
    exact (hshort.cons_cons _).cons_cons _
  | unencoded _ _ hoperated =>
    exact ((hoperated.sublist.append_right [.encode]).cons_cons _).cons_cons _
  | complete _ _ hoperated =>
    exact ((hoperated.sublist.append_right [.encode]).cons_cons _).cons_cons _

end Attempted

/-! ### Finishing up -/

variable {body : Body} {ended : Except Halt Unit} {after : Bench Component} {p : Panic}
  {report : Except Halt Report}

lemma run_conclude {trace : Trace}
    (hfinish : (kind.finish (input.context name)).run.run left = (ended, after))
    (hended : ∀ p, ended ≠ .error (.panic p)) :
    (kind.conclude name input).run.run ⟨left.subject, left.blackboard, trace, shown⟩ =
      (ended, ⟨after.subject.record shown, after.blackboard, trace, shown⟩) := by
  rw [conclude, run_bind_get, hfinish]
  rcases ended with (f | p) | _
  · cases shown <;> rfl
  · exact absurd rfl (hended p)
  · cases shown <;> rfl

lemma run_conclude_of_panic {trace : Trace}
    (hfinish : (kind.finish (input.context name)).run.run left = (.error (.panic p), after)) :
    (kind.conclude name input).run.run ⟨left.subject, left.blackboard, trace, shown⟩ =
      (.error (.panic p), ⟨after.subject, after.blackboard, trace, shown⟩) := by
  rw [conclude, run_bind_get, hfinish]
  rfl

lemma run_lifecycle_of_broken {body₁ : Body}
    (hattempt : (kind.attempt name input).run.run body = (.error (.panic p), body₁)) :
    (kind.lifecycle name input).run.run body = (.error (.panic p), body₁) := by
  change kind.lifecycle name input body = _
  rw [lifecycle, hattempt]

lemma run_lifecycle_of_unfinished {body₁ body₂ : Body}
    (hattempt : (kind.attempt name input).run.run body = (result, body₁))
    (hresult : ∀ p, result ≠ .error (.panic p))
    (hconclude : (kind.conclude name input).run.run body₁ = (.error (.panic p), body₂)) :
    (kind.lifecycle name input).run.run body = (.error (.panic p), body₂) := by
  change kind.lifecycle name input body = _
  rw [lifecycle, hattempt]
  rcases result with (f | p) | _
  · dsimp only
    rw [hconclude]
  · exact absurd rfl (hresult p)
  · dsimp only
    rw [run_bind, hconclude]

/-- A fault of the first part comes before one of the second. -/
lemma run_lifecycle_of_error {body₁ body₂ : Body}
    (hattempt : (kind.attempt name input).run.run body = (result, body₁))
    (hresult : ∀ p, result ≠ .error (.panic p))
    (hconclude : (kind.conclude name input).run.run body₁ = (ended, body₂))
    (hended : ∀ p, ended ≠ .error (.panic p)) (herror : (result.bind fun _ => ended) = .error halt) :
    (kind.lifecycle name input).run.run body = (.error halt, body₂) := by
  change kind.lifecycle name input body = _
  rw [lifecycle, hattempt]
  rcases result with (f | p) | _
  · cases herror
    dsimp only
    rw [hconclude]
    rcases ended with (_ | p) | _
    · rfl
    · exact absurd rfl (hended p)
    · rfl
  · exact absurd rfl (hresult p)
  · dsimp only
    rw [run_bind, hconclude]
    cases herror
    rfl

/-- The report of a render of a kind comes of its lifecycle. -/
lemma run_render (h : (kind.lifecycle c.name input).run.run ⟨c.normalize, board, {}, none⟩ =
      (result, body)) :
    (kind.renderer.render input).run.run ⟨c, board⟩ =
      (result.map fun _ => ⟨c.name, kind.name, input.event.operation, body.visible.getD false,
        body.trace⟩, ⟨body.component, body.blackboard⟩) := by
  have hrun : (kind.renderer.run input).run.run ⟨c, board⟩ =
      (result.map fun _ => ⟨body.visible.getD false, body.trace⟩,
        ⟨body.component, body.blackboard⟩) := run_renderer h
  rw [Renderer.render, run_bind_get, run_bind, hrun]
  cases result <;> rfl

/-- Whatever the hooks are, there is a course of a render. -/
lemma exists_rendered (kind : Kind M) (input : Input) (c : Component) (board : Blackboard) :
    ∃ hooks report bench, kind.Rendered input c board hooks report bench := by
  have hnot {result : Except Halt Unit} (h : ¬∃ p, result = .error (.panic p)) :
      ∀ p, result ≠ .error (.panic p) := fun p hp => h ⟨p, hp⟩
  obtain ⟨hooks, visible, result, left, hattempted⟩ :=
    kind.exists_attempted c.name input c.normalize board
  by_cases hresult : ∃ p, result = .error (.panic p)
  · obtain ⟨p, rfl⟩ := hresult
    exact ⟨_, _, _, .broken hattempted⟩
  · rcases hfinish : (kind.finish (input.context c.name)).run.run left with ⟨ended, after⟩
    by_cases hended : ∃ p, ended = .error (.panic p)
    · obtain ⟨p, rfl⟩ := hended
      exact ⟨_, _, _, .unfinished hattempted (hnot hresult) hfinish⟩
    · exact ⟨_, _, _, .finished hattempted (hnot hresult) hfinish (hnot hended)⟩

namespace Rendered

/-- A render takes its course. -/
lemma run (h : kind.Rendered input c board hooks report after) :
    (kind.renderer.render input).run.run ⟨c, board⟩ = (report, after) := by
  cases h with
  | broken hattempted =>
    obtain ⟨trace, hrun⟩ := hattempted.run
    rw [run_render (run_lifecycle_of_broken hrun)]
    rfl
  | unfinished hattempted hresult hfinish =>
    obtain ⟨trace, hrun⟩ := hattempted.run
    rw [run_render (run_lifecycle_of_unfinished hrun hresult (run_conclude_of_panic hfinish))]
    rfl
  | @finished _ _ result ended _ _ hattempted hresult hfinish hended =>
    cases hboth : result.bind fun _ => ended with
    | error halt =>
      obtain ⟨trace, hrun⟩ := hattempted.run
      rw [run_render (run_lifecycle_of_error hrun hresult (run_conclude hfinish hended) hended hboth)]
      rcases result with _ | _ <;> cases hboth <;> rfl
    | ok _ =>
      rcases result with _ | _
      · cases hboth
      · cases hboth
        have hlifecycle := lifecycle_eq_ok_iff.mpr ⟨_, _, hattempted.run_of_ok,
          run_conclude hfinish hended, Attempt.advance_eq_ok_iff.mpr ⟨rfl, rfl⟩⟩
        rw [run_render hlifecycle]
        rfl

end Rendered

/-- A render and its course are the same. -/
theorem exists_rendered_iff : (∃ hooks, kind.Rendered input c board hooks report after) ↔
    (kind.renderer.render input).run.run ⟨c, board⟩ = (report, after) := by
  constructor
  · rintro ⟨hooks, h⟩
    exact h.run
  · intro hrun
    obtain ⟨hooks, report', after', h⟩ := kind.exists_rendered input c board
    obtain ⟨rfl, rfl⟩ := Prod.mk.inj (h.run.symm.trans hrun)
    exact ⟨hooks, h⟩

lemma Operates.unique {bench₁ bench₂ : Bench M} (h₁ : kind.Operates context visible bench bench₁)
    (h₂ : kind.Operates context visible bench bench₂) : bench₁ = bench₂ := by
  cases visible with
  | false => exact Eq.trans h₁ h₂.symm
  | true => exact (Prod.mk.inj (Eq.trans h₁.symm h₂)).2

/-- Once it is known what becomes of the model, a render is successful if encoding and finishing up
are. -/
theorem render_eq_ok_iff_of_operates {report : Report}
    (hdecode : kind.decode kind.fresh c.normalize input.params = .ok model)
    (hvisible : (kind.visible (input.context c.name) model).run.run board = (.ok visible, board₁))
    (hoperates : kind.Operates (input.context c.name) visible ⟨model, board₁⟩ bench) :
    (kind.renderer.render input).run.run ⟨c, board⟩ = (.ok report, after) ↔
      ∃ encoded finished,
        (kind.encode bench.subject).run.run c.normalize = (.ok (), encoded) ∧
        (kind.finish (input.context c.name)).run.run ⟨kind.flattened encoded, bench.blackboard⟩ =
          (.ok (), finished) ∧
        report = kind.reportOf c.name input visible ∧
        after = ⟨finished.subject.setVisible visible, finished.blackboard⟩ := by
  rw [Renderer.render_eq_ok_iff]
  simp only [run_renderer_eq_ok_iff]
  constructor
  · rintro ⟨⟨visible', trace⟩, ⟨model', board', bench', encoded, finished, hdecode', hvisible',
      hoperates', hencode, hfinish, htrace, rfl⟩, rfl⟩
    cases hdecode.symm.trans hdecode'
    cases hvisible.symm.trans hvisible'
    cases hoperates.unique hoperates'
    dsimp only at htrace
    subst htrace
    exact ⟨encoded, finished, hencode, hfinish, rfl, rfl⟩
  · rintro ⟨encoded, finished, hencode, hfinish, rfl, rfl⟩
    exact ⟨⟨visible, _⟩, ⟨model, board₁, bench, encoded, finished, hdecode, hvisible, hoperates,
      hencode, hfinish, rfl, rfl⟩, rfl⟩

/-! ### Hooks that are exchanged -/

section

variable {before onOpen onRefresh after' : Handler M} {operations : Operations M}
  {finish : Context → Work Component Unit}

/-- Other hooks for the model take the first part of a render the same course if they do the same to
the model that has been decoded. -/
lemma Attempted.exchange (h : kind.Attempted name input c board hooks shown result left)
    (hoperated : ∀ {model visible board₁ hooks result bench},
      kind.decode kind.fresh c input.params = .ok model →
      (kind.visible (input.context name) model).run.run board = (.ok visible, board₁) →
      kind.Operated (input.context name) ⟨model, board₁⟩ visible hooks result bench →
      { kind with before, operations, onOpen, onRefresh, after := after', finish }.Operated
        (input.context name) ⟨model, board₁⟩ visible hooks result bench) :
    { kind with before, operations, onOpen, onRefresh, after := after', finish }.Attempted name input
      c board hooks shown result left := by
  cases h with
  | undecoded hdecode hrecoded => exact .undecoded hdecode hrecoded
  | unjudged hdecode hvisible => exact .unjudged hdecode hvisible
  | unhandled hdecode hvisible h =>
    exact .unhandled hdecode hvisible (hoperated hdecode hvisible h)
  | unencoded hdecode hvisible h hencode hrecoded =>
    exact .unencoded hdecode hvisible (hoperated hdecode hvisible h) hencode hrecoded
  | complete hdecode hvisible h hencode =>
    exact .complete hdecode hvisible (hoperated hdecode hvisible h) hencode

/-- A render takes the same course if its first part does. -/
lemma Rendered.exchange (h : kind.Rendered input c board hooks report after)
    (hattempted : ∀ {hooks visible result left},
      kind.Attempted c.name input c.normalize board hooks visible result left →
      { kind with before, operations, onOpen, onRefresh, after := after' }.Attempted c.name input
        c.normalize board hooks visible result left) :
    { kind with before, operations, onOpen, onRefresh, after := after' }.Rendered input c board hooks
      report after := by
  cases h with
  | broken h => exact .broken (hattempted h)
  | unfinished h hresult hfinish => exact .unfinished (hattempted h) hresult hfinish
  | finished h hresult hfinish hended => exact .finished (hattempted h) hresult hfinish hended

end

end Kind

end PageRender
