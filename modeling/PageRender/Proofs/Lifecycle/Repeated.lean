import PageRender.Proofs.Lifecycle.Extra
import PageRender.Proofs.Lifecycle.Plain

/-!
# Renders that are repeated

A component of a plain kind that has been rendered once is rendered again. Whether it shows is found
out before its extra entries are moved up, and only one level of them is moved. So the second render
may find the component hidden by what the first has moved up, and it may find extra entries again.
If neither is the case, the second render changes nothing.
-/

namespace PageRender

namespace Fields

variable {fields props : Fields}

/-- Whether a component with these props shows. -/
def shows (props : Fields) : Bool :=
  (props.get? "hidden").bind Value.bool? != some true

/-- The props do not say whether the component is hidden, and the extra entries say that it is. -/
def HidesByExtra (props : Fields) : Prop :=
  props.get? "hidden" = none ∧ (props.extra? "hidden").bind Value.bool? = some true

/-- Among the extra entries there are extra entries again. -/
def NestsExtra (fields : Fields) : Prop :=
  ((fields.extra? extraKey).bind Value.members?).isSome = true

/-- Whether a component shows depends on whether its extra entries have been moved up only if these
hide it. -/
lemma shows_flattenExtra_iff : props.flattenExtra.1.shows = props.shows ↔ ¬props.HidesByExtra := by
  have hget : props.flattenExtra.1.get? "hidden" =
      (props.get? "hidden").or (props.extra? "hidden") := get?_flattenExtra_of_ne (by decide)
  unfold shows HidesByExtra
  rw [hget]
  cases props.get? "hidden" with
  | none =>
    rw [Option.none_or, Option.bind_none]
    rcases (props.extra? "hidden").bind Value.bool? with _ | (_ | _) <;> decide
  | some v => simp

lemma flattenExtra_flattenExtra_iff :
    fields.flattenExtra.1.flattenExtra.1 = fields.flattenExtra.1 ↔ ¬fields.NestsExtra := by
  rw [flattenExtra_eq_self_iff, extraMembers?_flattenExtra, NestsExtra, Option.isSome_iff_ne_none,
    not_not]

end Fields

namespace Kind

variable {name : String} {flattens : Bool} {operations : Operations Containers}
  {kind : Kind Containers} {input : Input} {c : Component} {board : Blackboard}

/-- Whether the extra entries of a component are flattened. -/
def flattensIn (kind : Kind Containers) (c : Component) : Bool :=
  kind.flattens || (c.flags.getD {}).flatExtra

/-- A component of a plain kind as a render leaves it. -/
def settled (kind : Kind Containers) (c : Component) : Component :=
  (kind.flattened c.normalize).setVisible (c.props.getD .empty).shows

lemma render_settled
    (h : input.event.operation = Event.openOperation ∨
      input.event.operation = Event.refreshOperation) :
    let kind := { Kind.plain name with flattens, operations }
    (kind.renderer.render input).run.run ⟨c, board⟩ =
      (.ok (kind.reportOf c.name input (c.props.getD .empty).shows), ⟨kind.settled c, board⟩) :=
  render_plain h rfl

lemma settled_of_flattensIn (h : kind.flattensIn c = true) : kind.settled c = { c with
    props := some (c.props.getD .empty).flattenExtra.1
    data := some (c.data.getD .empty).flattenExtra.1
    state := some (c.state.getD .empty)
    operations := some (c.operations.getD .empty)
    flags := some ⟨(c.props.getD .empty).shows, (c.flags.getD {}).flatExtra⟩ } := by
  have hflat : (kind.flattens || (c.normalize.flags.getD {}).flatExtra) = true := h
  rw [settled, flattened, hflat]
  rfl

lemma settled_of_not_flattensIn (h : kind.flattensIn c = false) : kind.settled c = { c with
    props := some (c.props.getD .empty)
    data := some (c.data.getD .empty)
    state := some (c.state.getD .empty)
    operations := some (c.operations.getD .empty)
    flags := some ⟨(c.props.getD .empty).shows, (c.flags.getD {}).flatExtra⟩ } := by
  have hflat : (kind.flattens || (c.normalize.flags.getD {}).flatExtra) = false := h
  rw [settled, flattened_eq_self hflat]
  rfl

lemma flattensIn_settled : kind.flattensIn (kind.settled c) = kind.flattensIn c := by
  cases h : kind.flattensIn c with
  | false =>
    rw [settled_of_not_flattensIn h]
    exact h
  | true =>
    rw [settled_of_flattensIn h]
    exact h

lemma name_settled : (kind.settled c).name = c.name := by
  cases h : kind.flattensIn c with
  | false => rw [settled_of_not_flattensIn h]
  | true => rw [settled_of_flattensIn h]

/-- Whether a component shows changes only if its extra entries hide it. -/
lemma shows_settled_iff :
    ((kind.settled c).props.getD .empty).shows = (c.props.getD .empty).shows ↔
      ¬(kind.flattensIn c = true ∧ (c.props.getD .empty).HidesByExtra) := by
  cases h : kind.flattensIn c with
  | false =>
    rw [settled_of_not_flattensIn h]
    simp
  | true =>
    rw [settled_of_flattensIn h, Option.getD_some, Fields.shows_flattenExtra_iff]
    simp

/-- What settles at once, settles for good. -/
lemma settled_settled_iff : kind.settled (kind.settled c) = kind.settled c ↔
    ¬(kind.flattensIn c = true ∧ ((c.props.getD .empty).HidesByExtra ∨
      (c.props.getD .empty).NestsExtra ∨ (c.data.getD .empty).NestsExtra)) := by
  cases h : kind.flattensIn c with
  | false =>
    refine iff_of_true ?_ (by simp)
    rw [settled_of_not_flattensIn (flattensIn_settled.trans h), settled_of_not_flattensIn h]
    rfl
  | true =>
    rw [settled_of_flattensIn (flattensIn_settled.trans h), settled_of_flattensIn h]
    simp only [Component.mk.injEq, Option.some.injEq, Option.getD_some, Flags.mk.injEq, true_and,
      and_true, Fields.flattenExtra_flattenExtra_iff, Fields.shows_flattenExtra_iff, not_or]
    tauto

lemma reportOf_eq_iff {input input' : Input} {shown shown' : Bool}
    (h : input'.event.operation = input.event.operation) :
    kind.reportOf name input' shown' = kind.reportOf name input shown ↔ shown' = shown := by
  constructor
  · exact congrArg Report.visible
  · rintro rfl
    rw [reportOf, reportOf, h]

/-- When a component of a plain kind has been rendered on a reserved operation, it can be rendered
on it again. The second report equals the first unless the component is flattened and extra entries of
its props hide it, about which its other props say nothing. And the component stays just as it is
unless that is so, or it is flattened and there are extra entries among the extra entries of its
props or of its data. -/
theorem second_render_unchanged_iff (name : String) (flattens : Bool)
    (operations : Operations Containers) (input input' : Input) (c : Component)
    (board board' : Blackboard)
    (hreserved : input.event.operation = Event.openOperation ∨
      input.event.operation = Event.refreshOperation)
    (hsame : input'.event.operation = input.event.operation) :
    let kind := { Kind.plain name with flattens, operations }
    let flat := flattens || (c.flags.getD {}).flatExtra
    let props := c.props.getD .empty
    let data := c.data.getD .empty
    ∃ report after report' after',
      (kind.renderer.render input).run.run ⟨c, board⟩ = (.ok report, ⟨after, board⟩) ∧
      (kind.renderer.render input').run.run ⟨after, board'⟩ = (.ok report', ⟨after', board'⟩) ∧
      (report' = report ↔ ¬(flat = true ∧ props.HidesByExtra)) ∧
      (after' = after ↔
        ¬(flat = true ∧ (props.HidesByExtra ∨ props.NestsExtra ∨ data.NestsExtra))) := by
  intro kind flat props data
  refine ⟨_, _, _, _, render_settled hreserved, render_settled (hsame ▸ hreserved), ?_,
    settled_settled_iff⟩
  rw [name_settled, reportOf_eq_iff hsame]
  exact shows_settled_iff

/-- The total of a list is moved up by the first render. The second one, in another language,
changes nothing. -/
theorem second_render_unchanged_iff_list :
    let kind := { Kind.plain "table" with flattens := true }
    let input : Input := { event := .refreshing "list" }
    let input' : Input := { event := .refreshing "list", locale := "de" }
    let c := { Component.ofType "list" "table" with
      data := some (.ofList [("extra", .ofMembers [("total", .ofBool true)])]) }
    (input.event.operation = Event.openOperation ∨
      input.event.operation = Event.refreshOperation) ∧
    input'.event.operation = input.event.operation ∧ ∃ report after,
      (kind.renderer.render input).run.run ⟨c, .empty⟩ = (.ok report, ⟨after, .empty⟩) ∧
      (kind.renderer.render input').run.run ⟨after, .empty⟩ = (.ok report, ⟨after, .empty⟩) := by
  intro kind input input' c
  have hreserved : input.event.operation = Event.openOperation ∨
      input.event.operation = Event.refreshOperation := Or.inr rfl
  obtain ⟨report, after, report', after', hfirst, hsecond, hreport, hafter⟩ :=
    second_render_unchanged_iff "table" true .empty input input' c .empty .empty hreserved rfl
  have hshows : ¬Fields.HidesByExtra .empty := fun h => nomatch h.2
  have hprops : ¬Fields.NestsExtra .empty := nofun
  have hdata : ¬Fields.NestsExtra (.ofList [("extra", .ofMembers [("total", .ofBool true)])]) :=
    nofun
  obtain rfl := hreport.mpr fun h => hshows h.2
  obtain rfl := hafter.mpr fun h => h.2.elim hshows (·.elim hprops hdata)
  exact ⟨hreserved, rfl, _, _, hfirst, hsecond⟩

/-- Two components do not stay as they are. The extra entries of one hide it, so that it shows in
the first render and not in the second. The other has extra entries among its extra entries, which
are moved up one after the other. -/
theorem second_render_differs :
    let kind := { Kind.plain "panel" with flattens := true }
    let input : Input := { event := .opening "head" }
    let veiled := { Component.ofType "head" "panel" with
      props := some (.ofList [("extra", .ofMembers [("hidden", .ofBool true)])]) }
    let nested := { Component.ofType "head" "panel" with
      data := some (.ofList [("extra", .ofMembers [("extra", .ofMembers [("total", .null)])])]) }
    (∃ report report' after after',
      (kind.renderer.render input).run.run ⟨veiled, .empty⟩ = (.ok report, after) ∧
      (kind.renderer.render input).run.run after = (.ok report', after') ∧
      report' ≠ report ∧ after' ≠ after) ∧
    ∃ report after after',
      (kind.renderer.render input).run.run ⟨nested, .empty⟩ = (.ok report, after) ∧
      (kind.renderer.render input).run.run after = (.ok report, after') ∧ after' ≠ after := by
  intro kind input veiled nested
  have hreserved : input.event.operation = Event.openOperation ∨
      input.event.operation = Event.refreshOperation := Or.inl rfl
  constructor
  · refine ⟨_, _, _, _, render_settled hreserved, render_settled hreserved, ?_, ?_⟩
    · exact fun h => nomatch congrArg Report.visible h
    · intro h
      refine settled_settled_iff.mp (congrArg Bench.subject h) ⟨rfl, Or.inl ⟨rfl, rfl⟩⟩
  · refine ⟨_, _, _, render_settled hreserved, render_settled hreserved, ?_⟩
    intro h
    exact settled_settled_iff.mp (congrArg Bench.subject h) ⟨rfl, Or.inr (Or.inr rfl)⟩

end Kind

end PageRender
