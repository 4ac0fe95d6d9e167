import PageRender.Kind.Plain
import PageRender.Proofs.Dict
import PageRender.Proofs.Lifecycle.Course

/-!
# Operations as they were registered

A kind registers handlers one after the other, some of them perhaps for one operation or for one
that is reserved. For the reserved operations the kind's own handlers serve, and for any other the
one that was registered last. A component that shows gets this handler and no other, between what
belongs before and after it. An operation without a handler ends the render before the model is
encoded.
-/

namespace PageRender

namespace Work

variable {M : Type} {hook : Hook} {work : Work M Unit} {rest : List (Hook × Work M Unit)}
  {bench bench' : Bench M} {halt : Halt}

/-- Pieces of work done in turn, up to the first that halts, and which of them were called. -/
def inTurn : List (Hook × Work M Unit) → Bench M → List Hook × Except Halt Unit × Bench M
  | [], bench => ([], .ok (), bench)
  | (hook, work) :: rest, bench =>
    match work.run.run bench with
    | (.ok _, bench) => (inTurn rest bench).map (hook :: ·) id
    | (.error halt, bench) => ([hook], .error halt, bench)

lemma inTurn_cons_of_ok (h : work.run.run bench = (.ok (), bench')) :
    inTurn ((hook, work) :: rest) bench = (inTurn rest bench').map (hook :: ·) id := by
  rw [inTurn, h]

lemma inTurn_cons_of_error (h : work.run.run bench = (.error halt, bench')) :
    inTurn ((hook, work) :: rest) bench = ([hook], .error halt, bench') := by
  rw [inTurn, h]

/-- The result of the last piece of work is the result of all. -/
lemma inTurn_singleton {result : Except Halt Unit} (h : work.run.run bench = (result, bench')) :
    inTurn [(hook, work)] bench = ([hook], result, bench') := by
  cases result with
  | error halt => exact inTurn_cons_of_error h
  | ok => exact inTurn_cons_of_ok h

end Work

namespace Kind

variable {M : Type} {kind : Kind M} {registrations : List (String × Handler M)} {key : String}
  {name : String} {input : Input} {context : Context} {visible : Bool} {c : Component}
  {board board₁ : Blackboard} {hooks : List Hook} {shown : Option Bool} {model : M}
  {bench bench' : Bench M} {result first : Except Halt Unit} {handler : Handler M}
  {left after : Bench Component} {report : Except Halt Report}

/-- The handler of an operation: the kind's own if the operation is reserved, and otherwise the one
that was registered last. -/
def handlerFor? (kind : Kind M) (registrations : List (String × Handler M)) (key : String) :
    Option (Handler M) :=
  if key = Event.openOperation then some kind.onOpen
  else if key = Event.refreshOperation then some kind.onRefresh
  else registrations.reverse.lookup key

lemma get?_table (h : kind.operations = .ofList registrations) (key : String) :
    kind.table.get? key = kind.handlerFor? registrations key := by
  rw [table, Dict.get?_insert, Dict.get?_insert, h, Dict.get?_ofList, handlerFor?]
  by_cases hopen : key = Event.openOperation
  · rw [if_pos hopen, if_pos hopen, if_neg (hopen ▸ by decide)]
  · rw [if_neg hopen, if_neg hopen]

/-! ### What is done to the model -/

namespace Operated

lemma inTurn (h : kind.Operated context bench true hooks result bench')
    (hhandler : kind.table.get? context.operation = some handler) :
    Work.inTurn [(.before, kind.before context), (.operation, handler context),
      (.after, kind.after context)] bench = (hooks, result, bench') := by
  cases h with
  | before hbefore => exact Work.inTurn_cons_of_error hbefore
  | unknown _ hnone => cases hhandler.symm.trans hnone
  | operation hbefore hfound hoperation =>
    cases hhandler.symm.trans hfound
    rw [Work.inTurn_cons_of_ok hbefore, Work.inTurn_cons_of_error hoperation]
    rfl
  | after hbefore hfound hoperation hafter =>
    cases hhandler.symm.trans hfound
    rw [Work.inTurn_cons_of_ok hbefore, Work.inTurn_cons_of_ok hoperation,
      Work.inTurn_singleton hafter]
    rfl

/-- Without a handler only what belongs before it is done. -/
lemma of_unknown (h : kind.Operated context bench true hooks result bench')
    (hnone : kind.table.get? context.operation = none) : hooks = [.before] ∧
      ∃ before, (kind.before context).run.run bench = (before, bench') ∧
        result = before.bind fun _ =>
          .error (.fault (.noOperation context.component context.operation)) := by
  cases h with
  | before hbefore => exact ⟨rfl, _, hbefore, rfl⟩
  | unknown hbefore => exact ⟨rfl, _, hbefore, rfl⟩
  | operation _ hfound => cases hnone.symm.trans hfound
  | after _ hfound => cases hnone.symm.trans hfound

/-- Only the handler of the operation has a part in what is done. -/
lemma withHandlers {operations : Operations M} {onOpen onRefresh : Handler M}
    (h : kind.Operated context bench visible hooks result bench')
    (htable : { kind with operations, onOpen, onRefresh }.table.get? context.operation =
      kind.table.get? context.operation) :
    { kind with operations, onOpen, onRefresh }.Operated context bench visible hooks result
      bench' := by
  cases h with
  | hidden => exact .hidden
  | before hbefore => exact .before hbefore
  | unknown hbefore hnone => exact .unknown hbefore (htable.trans hnone)
  | operation hbefore hfound hoperation => exact .operation hbefore (htable.trans hfound) hoperation
  | after hbefore hfound hoperation hafter =>
    exact .after hbefore (htable.trans hfound) hoperation hafter

end Operated

/-! ### What follows from it -/

/-- The first part of a render ends with what is done to the model, or with encoding it. -/
lemma Attempted.exists_operated
    (h : kind.Attempted name input c board hooks shown first left)
    (hdecode : kind.decode kind.fresh c input.params = .ok model)
    (hvisible : (kind.visible (input.context name) model).run.run board = (.ok visible, board₁)) :
    ∃ called result bench,
      kind.Operated (input.context name) ⟨model, board₁⟩ visible called result bench ∧
      (result = .ok () ∧ hooks = .decode :: .visible :: (called ++ [.encode]) ∨
        ∃ halt, result = .error halt ∧ hooks = .decode :: .visible :: called ∧
          first = .error halt ∧ left = ⟨c, bench.blackboard⟩) := by
  cases h with
  | undecoded hdecode' => cases hdecode.symm.trans hdecode'
  | unjudged hdecode' hvisible' =>
    cases hdecode.symm.trans hdecode'
    cases hvisible.symm.trans hvisible'
  | unhandled hdecode' hvisible' hoperated =>
    cases hdecode.symm.trans hdecode'
    cases hvisible.symm.trans hvisible'
    exact ⟨_, _, _, hoperated, Or.inr ⟨_, rfl, rfl, rfl, rfl⟩⟩
  | unencoded hdecode' hvisible' hoperated =>
    cases hdecode.symm.trans hdecode'
    cases hvisible.symm.trans hvisible'
    exact ⟨_, _, _, hoperated, Or.inl ⟨rfl, rfl⟩⟩
  | complete hdecode' hvisible' hoperated =>
    cases hdecode.symm.trans hdecode'
    cases hvisible.symm.trans hvisible'
    exact ⟨_, _, _, hoperated, Or.inl ⟨rfl, rfl⟩⟩

/-- If the first part of a render halts, that is reported unless the kind panics while it finishes
up. -/
lemma Rendered.exists_attempted (h : kind.Rendered input c board hooks report after) :
    ∃ called rest visible first left,
      kind.Attempted c.name input c.normalize board called visible first left ∧
      hooks = called ++ rest ∧ rest.Sublist [.finish] ∧
      ∀ halt, first = .error halt → report = .error halt ∨ ∃ p ended,
        (kind.finish (input.context c.name)).run.run left = (.error (.panic p), ended) ∧
        report = .error (.panic p) := by
  cases h with
  | broken hattempted =>
    refine ⟨_, [], _, _, _, hattempted, (List.append_nil _).symm, by decide, ?_⟩
    rintro halt ⟨⟩
    exact Or.inl rfl
  | unfinished hattempted _ hfinish =>
    exact ⟨_, [.finish], _, _, _, hattempted, rfl, by decide, fun _ _ =>
      Or.inr ⟨_, _, hfinish, rfl⟩⟩
  | finished hattempted =>
    refine ⟨_, [.finish], _, _, _, hattempted, rfl, by decide, ?_⟩
    rintro halt rfl
    exact Or.inl rfl

/-- After what is done to the model, the model is encoded if nothing has halted. Otherwise the halt
is reported, unless the kind panics while it finishes up. -/
lemma Rendered.exists_operated (h : kind.Rendered input c board hooks report after)
    (hdecode : kind.decode kind.fresh c.normalize input.params = .ok model)
    (hvisible : (kind.visible (input.context c.name) model).run.run board = (.ok visible, board₁)) :
    ∃ called result bench rest,
      kind.Operated (input.context c.name) ⟨model, board₁⟩ visible called result bench ∧
      hooks = .decode :: .visible :: (called ++ rest) ∧ rest.Sublist [.encode, .finish] ∧
      (Hook.encode ∈ rest ↔ result = .ok ()) ∧
      ∀ halt, result = .error halt → report = .error halt ∨ ∃ p ended,
        (kind.finish (input.context c.name)).run.run ⟨c.normalize, bench.blackboard⟩ =
          (.error (.panic p), ended) ∧ report = .error (.panic p) := by
  obtain ⟨_, rest, _, first, left, hattempted, rfl, hrest, hreport⟩ := h.exists_attempted
  obtain ⟨called, result, bench, hoperated, ⟨rfl, rfl⟩ | ⟨halt, rfl, rfl, rfl, rfl⟩⟩ :=
    hattempted.exists_operated hdecode hvisible
  · refine ⟨called, _, bench, .encode :: rest, hoperated, by simp, hrest.cons_cons _, by simp, ?_⟩
    rintro halt ⟨⟩
  · have hencode : Hook.encode ∉ rest := fun hmem => by simpa using hrest.subset hmem
    refine ⟨called, _, bench, rest, hoperated, rfl, hrest.trans (by decide), ?_, ?_⟩
    · exact iff_of_false hencode nofun
    · rintro _ ⟨⟩
      exact hreport halt rfl

/-- A component that shows gets what belongs before its operation, then the one handler that serves
it, then what belongs after, up to the first of them that halts. The handler is the kind's own if
the operation is reserved, and else the one registered last; any other handler may be exchanged or
left out. If there is no handler, nothing is done after what belongs before, and if that has not
halted, it is reported that there is no such operation. The model is encoded only if nothing has
halted, and then it is encoded as these have left it. A halt is what is reported, unless the kind
panics while it finishes up. -/
theorem last_registered_handler_runs (hoperations : kind.operations = .ofList registrations)
    (hdecode : kind.decode kind.fresh c.normalize input.params = .ok model)
    (hvisible : (kind.visible (input.context c.name) model).run.run board = (.ok true, board₁)) :
    let context := input.context c.name
    let key := input.event.operation
    ∃ hooks report after called result bench rest,
      kind.Rendered input c board hooks report after ∧
      (kind.renderer.render input).run.run ⟨c, board⟩ = (report, after) ∧
      hooks = .decode :: .visible :: (called ++ rest) ∧ rest.Sublist [.encode, .finish] ∧
      (Hook.encode ∈ rest ↔ result = .ok ()) ∧
      (∀ halt, result = .error halt → report = .error halt ∨ ∃ p ended,
        (kind.finish context).run.run ⟨c.normalize, bench.blackboard⟩ =
          (.error (.panic p), ended) ∧ report = .error (.panic p)) ∧
      (∀ handler, kind.handlerFor? registrations key = some handler →
        Work.inTurn [(.before, kind.before context), (.operation, handler context),
          (.after, kind.after context)] ⟨model, board₁⟩ = (called, result, bench) ∧
        (result = .ok () → ∀ answer left,
          (kind.renderer.render input).run.run ⟨c, board⟩ = (.ok answer, left) ↔
            ∃ encoded finished,
              (kind.encode bench.subject).run.run c.normalize = (.ok (), encoded) ∧
              (kind.finish context).run.run ⟨kind.flattened encoded, bench.blackboard⟩ =
                (.ok (), finished) ∧
              answer = kind.reportOf c.name input true ∧
              left = ⟨finished.subject.setVisible true, finished.blackboard⟩) ∧
        ∀ operations onOpen onRefresh,
          { kind with operations, onOpen, onRefresh }.table.get? key = some handler →
          ({ kind with operations, onOpen, onRefresh }.renderer.render input).run.run ⟨c, board⟩ =
            (report, after)) ∧
      (kind.handlerFor? registrations key = none → called = [.before] ∧
        ∃ before, (kind.before context).run.run ⟨model, board₁⟩ = (before, bench) ∧
          result = before.bind fun _ => .error (.fault (.noOperation c.name key))) := by
  intro context key
  obtain ⟨hooks, report, after, hrendered⟩ := kind.exists_rendered input c board
  obtain ⟨called, result, bench, rest, hoperated, hhooks, hrest, hencode, hreport⟩ :=
    hrendered.exists_operated hdecode hvisible
  refine ⟨hooks, report, after, called, result, bench, rest, hrendered, hrendered.run, hhooks,
    hrest, hencode, hreport, fun handler hhandler => ?_, fun hnone => ?_⟩
  · have htable : kind.table.get? key = some handler := (get?_table hoperations key).trans hhandler
    refine ⟨hoperated.inTurn htable, ?_, fun operations onOpen onRefresh hother => ?_⟩
    · rintro rfl answer left
      exact render_eq_ok_iff_of_operates hdecode hvisible hoperated.operates
    · refine (hrendered.exchange fun h => h.exchange fun hdecode' hvisible' hoperated => ?_).run
      exact hoperated.withHandlers (hother.trans htable.symm)
  · exact hoperated.of_unknown ((get?_table hoperations key).trans hnone)

/-! ### A button with two handlers for one operation -/

/-- Leave a key in the state. -/
def leaving (key : String) : Handler Fields :=
  fun _ => Work.change (·.insert key .null)

/-- What buttons register: two handlers for a click, and one for the opening of their page. -/
def buttonOperations : List (String × Handler Fields) :=
  [("click", leaving "first"), (Event.openOperation, leaving "own"), ("click", leaving "second")]

/-- The kind of buttons, which leave in their state what has been done to them. -/
def button : Kind Fields :=
  { Kind.stateOnly "button" with
    operations := .ofList buttonOperations
    before := leaving "before"
    after := leaving "after" }

/-- A click gets the second of its two handlers, and the opening of the page none of the three that
are registered. For scrolling there is no handler. -/
theorem last_registered_handler_runs_button :
    let c := Component.ofType "save" "button"
    let clicked : Input := { event := ⟨"save", "click", .empty⟩ }
    let opened : Input := { event := .opening "save" }
    let scrolled : Input := { event := ⟨"save", "scroll", .empty⟩ }
    let left (input : Input) := ((button.renderer.render input).run.run ⟨c, .empty⟩).2.subject
    button.operations = .ofList buttonOperations ∧
    button.decode button.fresh c.normalize .empty = .ok .empty ∧
    (∀ input : Input, (button.visible (input.context c.name) .empty).run.run .empty =
      (.ok true, .empty)) ∧
    (left clicked).stateFields.keys = ["before", "second", "after"] ∧
    (left opened).stateFields.keys = ["before", "after"] ∧
    ((button.renderer.render scrolled).run.run ⟨c, .empty⟩).1 =
      .error (.fault (.noOperation "save" "scroll")) := by
  intro c clicked opened scrolled left
  have hvisible (input : Input) : (button.visible (input.context c.name) .empty).run.run .empty =
      (.ok true, .empty) := rfl
  refine ⟨rfl, rfl, hvisible, ?_, ?_, ?_⟩
  · obtain ⟨-, _, _, _, _, _, _, -, -, -, -, -, -, hfound, -⟩ :=
      last_registered_handler_runs (c := c) rfl rfl (hvisible clicked)
    obtain ⟨hinTurn, hok, -⟩ := hfound (leaving "second") rfl
    cases hinTurn
    have hrender := (hok rfl _ _).mpr ⟨_, _, rfl, rfl, rfl, rfl⟩
    dsimp only [left]
    rw [hrender]
    decide
  · obtain ⟨-, _, _, _, _, _, _, -, -, -, -, -, -, hfound, -⟩ :=
      last_registered_handler_runs (c := c) rfl rfl (hvisible opened)
    obtain ⟨hinTurn, hok, -⟩ := hfound .idle rfl
    cases hinTurn
    have hrender := (hok rfl _ _).mpr ⟨_, _, rfl, rfl, rfl, rfl⟩
    dsimp only [left]
    rw [hrender]
    decide
  · obtain ⟨-, _, _, _, _, _, _, -, hrender, -, -, -, hreport, -, hunknown⟩ :=
      last_registered_handler_runs (c := c) rfl rfl (hvisible scrolled)
    obtain ⟨-, _, hbefore, hresult⟩ := hunknown rfl
    cases hbefore
    rw [hrender]
    refine (hreport _ hresult).resolve_right ?_
    rintro ⟨_, _, hfinish, -⟩
    cases hfinish

end Kind

end PageRender
