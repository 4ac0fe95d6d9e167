import PageRender.Proofs.Service.Solution

/-!
# Answers that do not depend on the order

The renders of a pass may end in any order that the render tree allows. If its components do not
touch the blackboard, and bindings read only what is rendered above, then all these orders lead to
the same answer, but for the order of the reports.
-/

namespace PageRender

open List

namespace Dispatch

lemma Execution.eq_of_no_root {σ τ : Type} {r : Runner σ τ} {world world' : σ} {moves : List Move}
    {log : List LogEntry} {outcome : Except Fault (List Nat)} (hroot : r.tree.root? = none)
    (h : Execution r world moves log outcome world') : outcome = .ok [] ∧ world' = world := by
  cases h with
  | empty _ => exact ⟨rfl, rfl⟩
  | ended hroot' _ _ =>
    rw [hroot] at hroot'
    cases hroot'

end Dispatch

namespace Service

variable {s : Service} {request : Request} {t : RenderTree} {start p₁ p₂ : Pass} {ready : Ready}
  {moves₁ moves₂ : List Move} {log₁ log₂ : List LogEntry} {root : Nat}
  {outcome : Except Fault (List Nat)} {completed : List Nat} {response : Response}
  {answer₁ answer₂ : Except Halt Response}

/-- Two passes that are the same but for the order of what has rendered and of the reports. -/
structure SameOutcome (p₁ p₂ : Pass) : Prop where
  components : p₁.components = p₂.components
  blackboard : p₁.blackboard = p₂.blackboard
  tally : p₁.tally = p₂.tally
  reports : p₁.reports.Perm p₂.reports

/-- If one order of a pass has come to a good end, so does every other, with the same outcome. -/
lemma sameOutcome_of_executions (ht : t.Rooted)
    (hbeginning : ∀ {root}, t.root? = some root → Beginning t root start)
    (hleaves : s.LeavesBlackboard request t start) (hbound : t.BoundAbove)
    (h₁ : Dispatch.Execution (s.runner request t) start moves₁ log₁ (.ok completed) p₁)
    (h₂ : Dispatch.Execution (s.runner request t) start moves₂ log₂ outcome p₂) :
    (∃ completed', outcome = .ok completed') ∧ SameOutcome p₁ p₂ := by
  have hreturns := s.runner_returns request t
  by_cases h0 : t.size = 0
  · have hroot : t.root? = none := by rw [ht.root?_eq, if_pos h0]
    obtain ⟨-, rfl⟩ := h₁.eq_of_no_root hroot
    obtain ⟨rfl, rfl⟩ := h₂.eq_of_no_root hroot
    exact ⟨⟨[], rfl⟩, rfl, rfl, rfl, .refl _⟩
  · obtain ⟨root, d₁, hroot, hcourse₁, rfl⟩ := h₁.exists_course ht (Nat.pos_of_ne_zero h0)
    obtain ⟨root', d₂, hroot', hcourse₂, rfl⟩ := h₂.exists_course ht (Nat.pos_of_ne_zero h0)
    obtain rfl : root = root' := Option.some.inj (hroot.symm.trans hroot')
    have hb := hbeginning hroot
    -- the first pass is a solution, and both approach it
    have hall₁ {i : Nat} (hi : i < t.size) : .succeeded i ∈ log₁ := h₁.succeeded_of_ok ht hreturns hi
    obtain ⟨reportOf, hsolution⟩ :=
      exists_solution hb hleaves hcourse₁ hall₁
    have happroaches₁ := Approaches.of_course hsolution hbound hb hleaves hcourse₁
    have happroaches₂ := Approaches.of_course hsolution hbound hb hleaves hcourse₂
    -- so the second pass is complete, too
    obtain rfl : outcome = .ok (log₂.filterMap LogEntry.success?) :=
      (h₂.outcome_eq_ok_iff ht hreturns).mpr ⟨happroaches₂.failed, rfl⟩
    obtain ⟨-, rfl⟩ := (h₁.outcome_eq_ok_iff ht hreturns).mp rfl
    have hall₂ {i : Nat} (hi : i < t.size) : .succeeded i ∈ log₂ := h₂.succeeded_of_ok ht hreturns hi
    have hperm : (log₁.filterMap LogEntry.success?).Perm (log₂.filterMap LogEntry.success?) :=
      (h₁.complete_of_ok ht hreturns).perm.trans (h₂.complete_of_ok ht hreturns).perm.symm
    refine ⟨⟨_, rfl⟩, ?_, ?_, ?_, ?_⟩
    · apply Dict.eq_of_get?
      · rw [(hb.ledger hcourse₁).keys, (hb.ledger hcourse₂).keys]
      · intro name
        by_cases hname : ∃ i < t.size, t.nameOf i = name
        · obtain ⟨i, hi, rfl⟩ := hname
          exact (happroaches₂.component (hall₂ hi)).symm
        · have hother : ∀ i < t.size, t.nameOf i ≠ name := fun i hi hi' => hname ⟨i, hi, hi'⟩
          rw [hb.untouched_of_unplanned hcourse₁ hother, hb.untouched_of_unplanned hcourse₂ hother]
    · rw [blackboard_of_course hb hleaves hcourse₁, blackboard_of_course hb hleaves hcourse₂]
    · rw [happroaches₁.tally, happroaches₂.tally]
      exact hperm.foldl_eq' (fun i _ j _ tally => t.count_right_comm reportOf tally i j) _
    · rw [happroaches₁.reports, happroaches₂.reports]
      exact (hperm.map reportOf).append_left _

/-- If one order leads to a response, every other order leads to a response that is the same. -/
lemma exists_same_response (hready : s.ready request = .ok ready)
    (hleaves : s.LeavesBlackboard request ready.tree ready.pass) (hbound : ready.tree.BoundAbove)
    (h₁ : s.Answers request (.ok response)) (h₂ : s.Answers request answer₂) :
    ∃ response', answer₂ = .ok response' ∧ response.page = response'.page ∧
      response.mode = response'.mode ∧ response.tally = response'.tally ∧
      response.reports.Perm response'.reports := by
  obtain ⟨prepared, -, hbuild, -⟩ := exists_prepared_of_ready hready
  generalize hanswer : (.ok response : Except Halt Response) = answer at h₁
  cases h₁ with
  | refused f h => cases hanswer
  | overloaded ready₁ p h hload => cases hanswer
  | ended ready₁ moves₁ log₁ outcome₁ p₁ h hload₁ hrun₁ =>
    obtain rfl : ready = ready₁ := Except.ok.inj (hready.symm.trans h)
    obtain ⟨hfault, completed, rfl, rfl⟩ :=
      answer_eq_ok_iff.mp (mapError_eq_ok_iff.mp hanswer.symm)
    cases h₂ with
    | refused f h =>
      rw [hready] at h
      cases h
    | overloaded ready₂ p h hload =>
      obtain rfl : ready = ready₂ := Except.ok.inj (hready.symm.trans h)
      rw [hload₁] at hload
      cases hload
    | ended ready₂ moves₂ log₂ outcome₂ p₂ h hload hrun₂ =>
      obtain rfl : ready = ready₂ := Except.ok.inj (hready.symm.trans h)
      obtain ⟨⟨completed', rfl⟩, hsame⟩ := sameOutcome_of_executions
        (RenderTree.rooted_of_build hbuild []) (beginning_of_ready hready) hleaves hbound hrun₁ hrun₂
      rw [hsame.blackboard] at hfault
      refine ⟨_, mapError_eq_ok_iff.mpr (answer_eq_ok_iff.mpr ⟨hfault, completed', rfl, rfl⟩), ?_,
        rfl, hsame.tally, hsame.reports⟩
      rw [hsame.components, hsame.blackboard]

/-- The answer to a request does not depend on the order of the renders, if no component of the pass
changes the blackboard, and bindings read only what is rendered above. Either all orders fail, or
all lead to the same page and the same tally, with the same reports in some order. -/
theorem answers_independent_of_order (hready : s.ready request = .ok ready)
    (hleaves : s.LeavesBlackboard request ready.tree ready.pass) (hbound : ready.tree.BoundAbove)
    (h₁ : s.Answers request answer₁) (h₂ : s.Answers request answer₂) :
    ((∃ e, answer₁ = .error e) ∧ ∃ e, answer₂ = .error e) ∨
    ∃ response₁ response₂, answer₁ = .ok response₁ ∧ answer₂ = .ok response₂ ∧
      response₁.page = response₂.page ∧ response₁.mode = response₂.mode ∧
      response₁.tally = response₂.tally ∧ response₁.reports.Perm response₂.reports := by
  cases answer₁ with
  | ok response₁ =>
    obtain ⟨response₂, rfl, hsame⟩ := exists_same_response hready hleaves hbound h₁ h₂
    exact Or.inr ⟨response₁, response₂, rfl, rfl, hsame⟩
  | error e₁ =>
    cases answer₂ with
    | ok response₂ =>
      obtain ⟨response₁, hanswer, -⟩ := exists_same_response hready hleaves hbound h₂ h₁
      cases hanswer
    | error e₂ => exact Or.inl ⟨⟨e₁, rfl⟩, e₂, rfl⟩

lemma leavesBlackboard_picker : Kind.picker.LeavesBlackboard where
  visible _ _ := .pure _
  operations _ _ h := by cases h
  onOpen _ := .modify fun _ => rfl
  onRefresh _ := .pure _
  before _ := .pure _
  after _ := .pure _
  finish _ := .pure _

lemma leavesBlackboard_colors (t : RenderTree) (start : Pass) :
    Service.colors.LeavesBlackboard .colors t start := by
  intro i step c r hstep hc hr
  obtain ⟨scenario, hscenario, hr⟩ := bind_eq_ok_iff.mp hr
  obtain rfl : (Scenario.ofPage .colors).withKind .picker = scenario := Except.ok.inj hscenario
  have hget : ((Scenario.ofPage .colors).withKind .picker).renderers.get? c.typeName =
      if c.typeName = "picker" then some Kind.picker.renderer else none :=
    Dict.get?_insert .empty "picker" c.typeName _
  rw [hget] at hr
  split_ifs at hr
  · cases hr
    exact leavesBlackboard_picker.renderer
  · cases hr

/-- The list and the foot end in either order, with the same page. -/
theorem answers_independent_of_order_siblings :
    ∃ ready response₁ response₂, Service.colors.ready .colors = .ok ready ∧
      Service.colors.Answers .colors (.ok response₁) ∧
      Service.colors.Answers .colors (.ok response₂) ∧
      response₁.reports.map Report.component = ["head", "list", "foot"] ∧
      response₂.reports.map Report.component = ["head", "foot", "list"] ∧
      response₁.page = response₂.page ∧ response₁.tally = response₂.tally := by
  obtain ⟨ready, hready, hroot, hbound⟩ := exists_ready_colors
  have hload : (Service.colors.runner .colors ready.tree).overload? = none := by
    simp [Runner.overload?, runner, Service.colors, Settings.permits]
  -- all begins with the head
  have hanswers (moves : List Move) (names : List String)
      (h : (Service.colors.ready .colors).toOption.any (fun ready =>
        let r := Service.colors.runner .colors ready.tree
        ((Dispatch.initial r 0 ready.pass).replay r ([.start 0, .settle 0] ++ moves)).any fun d =>
          d.isOver 0 && (answer ready.live ready.mode (d.result 0) d.world).toOption.any
            fun response => response.reports.map Report.component == names) = true) :
      ∃ response, Service.colors.Answers .colors (.ok response) ∧
        response.reports.map Report.component = names := by
    obtain ⟨d, hd, hchecks⟩ := (Option.any_eq_true _ _).mp (of_any_toOption hready h)
    obtain ⟨hover, hanswer⟩ := (Bool.and_eq_true _ _).mp hchecks
    obtain ⟨log, hrun⟩ := Dispatch.exists_execution_of_replay hroot hd hover
    obtain ⟨response, hresponse, hnames⟩ := exists_of_any_toOption hanswer
    have hended := Answers.ended ready _ log _ _ hready hload hrun
    rw [hresponse] at hended
    exact ⟨response, hended, beq_iff_eq.mp hnames⟩
  obtain ⟨response₁, h₁, hnames₁⟩ := hanswers
    [.start 1, .start 2, .settle 1, .settle 2, .join 0] ["head", "list", "foot"] (by decide +kernel)
  obtain ⟨response₂, h₂, hnames₂⟩ := hanswers
    [.start 2, .start 1, .settle 2, .settle 1, .join 0] ["head", "foot", "list"] (by decide +kernel)
  have hsame := answers_independent_of_order hready (leavesBlackboard_colors _ _) hbound h₁ h₂
  rcases hsame with ⟨⟨e, he⟩, -⟩ | ⟨r₁, r₂, hr₁, hr₂, hpage, -, htally, -⟩
  · cases he
  · cases hr₁
    cases hr₂
    exact ⟨ready, response₁, response₂, hready, h₁, h₂, hnames₁, hnames₂, hpage, htally⟩

end Service

end PageRender
