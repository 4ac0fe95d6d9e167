import PageRender.Kind.Plain
import PageRender.Proofs.Lifecycle.Blackboard

/-!
# Renders of plain kinds

A plain kind copies the containers of a component into its model and back, and does nothing on the
reserved operations. So all that such a render does is to make the containers present, to flatten
extra entries if that is asked for, and to write down whether the component shows.
-/

namespace PageRender

/-- What has been copied out of a component and is written back changes nothing but that all
containers are present. -/
lemma Containers.write_ofComponent (c : Component) :
    (Containers.ofComponent c.normalize).write c.normalize = c.normalize := rfl

namespace Kind

/-- A predicate that says whether a component shows, and writes nothing to the blackboard. -/
def JudgesOnly {M : Type} (visible : Context → M → ExceptT Panic (StateM Blackboard) Bool) : Prop :=
  ∀ context model, Leaves id (visible context model)

/-- The visibility that a predicate on the blackboard decides. -/
def judging (shows : Context → Containers → Blackboard → Bool) (context : Context)
    (m : Containers) : ExceptT Panic (StateM Blackboard) Bool := do
  pure (shows context m (← get))

variable {name : String} {flattens : Bool} {operations : Operations Containers}
  {visible : Context → Containers → ExceptT Panic (StateM Blackboard) Bool} {context : Context}
  {input : Input} {c : Component} {board board₁ : Blackboard} {shown : Bool}

lemma judgesOnly_judging (shows : Context → Containers → Blackboard → Bool) :
    JudgesOnly (judging shows) :=
  fun _ _ _ => rfl

/-- The operations that every kind has are idle in plain kinds. -/
lemma dispatch_plain (bench : Bench Containers)
    (h : context.operation = Event.openOperation ∨ context.operation = Event.refreshOperation) :
    ({ Kind.plain name with flattens, operations, visible }.dispatch context).run.run bench =
      (.ok (), bench) := by
  have htable : { Kind.plain name with flattens, operations, visible }.table.get?
      context.operation = some Handler.idle := by
    rw [table, Dict.get?_insert, Dict.get?_insert]
    rcases h with h | h <;> rw [h] <;> rfl
  rw [dispatch, htable]
  rfl

/-- When a page opens or is refreshed, the render of a component of a plain kind is successful once
it is known whether the component shows. -/
theorem render_plain
    (h : input.event.operation = Event.openOperation ∨
      input.event.operation = Event.refreshOperation)
    (hvisible : (visible (input.context c.name) (.ofComponent c)).run.run board =
      (.ok shown, board₁)) :
    let kind := { Kind.plain name with flattens, operations, visible }
    (kind.renderer.render input).run.run ⟨c, board⟩ =
      (.ok (kind.reportOf c.name input shown),
        ⟨(kind.flattened c.normalize).setVisible shown, board₁⟩) := by
  intro kind
  have hoperates : kind.Operates (input.context c.name) shown
      ⟨.ofComponent c, board₁⟩ ⟨.ofComponent c, board₁⟩ := by
    unfold Operates
    split
    · exact dispatch_plain _ h
    · rfl
  have hencode : (kind.encode (.ofComponent c)).run.run c.normalize = (.ok (), c.normalize) :=
    congrArg (Except.ok (), ·) (Containers.write_ofComponent c)
  exact (render_eq_ok_iff_of_operates rfl hvisible hoperates).mpr
    ⟨_, _, hencode, rfl, rfl, rfl⟩

/-- Where nothing asks for it, nothing is flattened. -/
lemma flattened_eq_self {M : Type} {kind : Kind M}
    (h : (kind.flattens || (c.flags.getD {}).flatExtra) = false) : kind.flattened c = c := by
  rw [flattened, h]
  rfl

/-- If extra entries are not flattened, the render of a component of a plain kind on a reserved
operation is successful, and the component is as it was: every container has its entries with their
values in their order, or is empty if it was absent, and only whether the component shows is written
down anew. The blackboard is as it was if the predicate judges the component and does no more; one
that writes to the blackboard is the only one to do so. -/
theorem plain_render_copies (name : String) (operations : Operations Containers) (input : Input)
    (c : Component) (board : Blackboard)
    (hreserved : input.event.operation = Event.openOperation ∨
      input.event.operation = Event.refreshOperation)
    (hflat : (c.flags.getD {}).flatExtra = false) :
    let copied (shown : Bool) : Component := { c with
      props := some (c.props.getD .empty)
      data := some (c.data.getD .empty)
      state := some (c.state.getD .empty)
      operations := some (c.operations.getD .empty)
      flags := some { visible := shown, flatExtra := false } }
    (∀ visible shown, JudgesOnly visible →
      ((visible (input.context c.name) (.ofComponent c)).run.run board).1 = .ok shown →
      let kind := { Kind.plain name with operations, visible }
      (kind.renderer.render input).run.run ⟨c, board⟩ =
        (.ok (kind.reportOf c.name input shown), ⟨copied shown, board⟩)) ∧
    (∀ shows : Context → Containers → Blackboard → Bool,
      let kind := { Kind.plain name with operations, visible := judging shows }
      let shown := shows (input.context c.name) (.ofComponent c) board
      (kind.renderer.render input).run.run ⟨c, board⟩ =
        (.ok (kind.reportOf c.name input shown), ⟨copied shown, board⟩)) ∧
    ∀ visible shown board₁,
      (visible (input.context c.name) (.ofComponent c)).run.run board = (.ok shown, board₁) →
      let kind := { Kind.plain name with operations, visible }
      (kind.renderer.render input).run.run ⟨c, board⟩ =
        (.ok (kind.reportOf c.name input shown), ⟨copied shown, board₁⟩) := by
  intro copied
  have hall (visible shown board₁)
      (hvisible : (visible (input.context c.name) (.ofComponent c)).run.run board =
        (.ok shown, board₁)) :
      let kind := { Kind.plain name with operations, visible }
      (kind.renderer.render input).run.run ⟨c, board⟩ =
        (.ok (kind.reportOf c.name input shown), ⟨copied shown, board₁⟩) := by
    intro kind
    have hcopied : (kind.flattened c.normalize).setVisible shown = copied shown := by
      rw [flattened_eq_self (by simpa [kind, Kind.plain, Component.normalize] using hflat)]
      simp only [copied, Component.setVisible, Component.modifyFlags, Component.normalize,
        Option.getD_some, hflat]
    rw [render_plain hreserved hvisible, hcopied]
  have honly (visible shown) (hjudges : JudgesOnly visible)
      (hshown : ((visible (input.context c.name) (.ofComponent c)).run.run board).1 = .ok shown) :
      let kind := { Kind.plain name with operations, visible }
      (kind.renderer.render input).run.run ⟨c, board⟩ =
        (.ok (kind.reportOf c.name input shown), ⟨copied shown, board⟩) :=
    hall visible shown board (Prod.ext hshown (hjudges _ _ board))
  exact ⟨honly, fun shows => honly _ _ (judgesOnly_judging shows) rfl, hall⟩

/-- Of the containers of a list only the state is there. It keeps its page and its filter, in this
order, and the blackboard has it that the list does not show. -/
theorem plain_render_copies_list :
    let state : Fields := .ofList [("page", .null), ("filter", .ofBool true)]
    let c := { Component.ofType "list" "table" with
      version := "2"
      state := some state
      flags := some {} }
    let input : Input := { event := .refreshing "list" }
    let board : Blackboard := ⟨.ofList [("quiet", .ofBool true)]⟩
    let kind := { Kind.plain "table" with
      visible := judging fun _ m board => m.state.contains "page" && (board.get? "quiet").isNone }
    (input.event.operation = Event.openOperation ∨
      input.event.operation = Event.refreshOperation) ∧
    (c.flags.getD {}).flatExtra = false ∧
    (kind.renderer.render input).run.run ⟨c, board⟩ = (.ok (kind.reportOf "list" input false),
      ⟨{ c with
        props := some .empty
        data := some .empty
        operations := some .empty
        flags := some { visible := false, flatExtra := false } }, board⟩) := by
  intro state c input board kind
  have hreserved : input.event.operation = Event.openOperation ∨
      input.event.operation = Event.refreshOperation := Or.inr rfl
  exact ⟨hreserved, rfl, (plain_render_copies "table" .empty input c board hreserved rfl).1 _ false
    (judgesOnly_judging _) rfl⟩

end Kind

end PageRender
