import PageRender.Proofs.Lifecycle.Course

/-!
# Renders that leave the blackboard alone

A kind touches the blackboard through its hooks only. If none of them changes it, no render does,
whether it is successful or halts.
-/

namespace PageRender

/-- Work that leaves a part of the state as it is, also when it halts. -/
def Leaves {ε ω α β : Type} (part : ω → β) (work : ExceptT ε (StateM ω) α) : Prop :=
  ∀ w, part (work.run.run w).2 = part w

namespace Leaves

variable {ε ω α β : Type} {part : ω → β} {work : ExceptT ε (StateM ω) α}

lemma pure (a : α) : Leaves part (Pure.pure a : ExceptT ε (StateM ω) α) :=
  fun _ => rfl

lemma modify {f : ω → ω} (hf : ∀ w, part (f w) = part w) :
    Leaves part (modify f : ExceptT ε (StateM ω) Unit) :=
  fun w => hf w

lemma eq_of_run (h : Leaves part work) {w w' : ω} {result : Except ε α}
    (hrun : work.run.run w = (result, w')) : part w' = part w := by
  have hleaves := h w
  rwa [hrun] at hleaves

end Leaves

/-- The hooks of a kind do not change the blackboard. -/
structure Kind.LeavesBlackboard {M : Type} (kind : Kind M) : Prop where
  visible : ∀ context model, Leaves id (kind.visible context model)
  operations : ∀ key handler, kind.operations.get? key = some handler →
    ∀ context, Leaves Bench.blackboard (handler context)
  onOpen : ∀ context, Leaves Bench.blackboard (kind.onOpen context)
  onRefresh : ∀ context, Leaves Bench.blackboard (kind.onRefresh context)
  before : ∀ context, Leaves Bench.blackboard (kind.before context)
  after : ∀ context, Leaves Bench.blackboard (kind.after context)
  finish : ∀ context, Leaves Bench.blackboard (kind.finish context)

/-- No render of a renderer changes the blackboard. -/
def Renderer.LeavesBlackboard (r : Renderer) : Prop :=
  ∀ input, Leaves Bench.blackboard (r.run input)

/-- A report is made up without a change. -/
lemma Renderer.bench_of_render {r : Renderer} {input : Input} {bench : Bench Component} :
    ((r.render input).run.run bench).2 = ((r.run input).run.run bench).2 := by
  rw [render, run_bind_get, run_bind]
  rcases (r.run input).run.run bench with ⟨_ | _, _⟩ <;> rfl

lemma Renderer.LeavesBlackboard.eq_of_render {r : Renderer} (h : r.LeavesBlackboard) {input : Input}
    {bench bench' : Bench Component} {outcome : Except Halt Report}
    (hrender : (r.render input).run.run bench = (outcome, bench')) :
    bench'.blackboard = bench.blackboard := by
  have hbench : ((r.render input).run.run bench).2 = _ := bench_of_render
  rw [hrender] at hbench
  exact (congrArg Bench.blackboard hbench).trans (h input bench)

namespace Kind

variable {M : Type} {kind : Kind M} {name : String} {input : Input} {context : Context}
  {visible : Bool} {c : Component} {board : Blackboard} {hooks : List Hook} {shown : Option Bool}
  {bench bench' : Bench M} {result : Except Halt Unit} {left after : Bench Component}
  {report : Except Halt Report}

/-- What holds of every operation that a kind declares, and of the two reserved ones, holds of any
that is found. -/
lemma of_table {P : Handler M → Prop}
    (hoperations : ∀ key handler, kind.operations.get? key = some handler → P handler)
    (hopen : P kind.onOpen) (hrefresh : P kind.onRefresh) {key : String} {handler : Handler M}
    (hkey : kind.table.get? key = some handler) : P handler := by
  rw [Kind.table, Dict.get?_insert, Dict.get?_insert] at hkey
  split_ifs at hkey
  · cases hkey
    exact hrefresh
  · cases hkey
    exact hopen
  · exact hoperations key handler hkey

namespace LeavesBlackboard

variable (h : kind.LeavesBlackboard)

include h

lemma table {key : String} {handler : Handler M} (hkey : kind.table.get? key = some handler)
    (context : Context) : Leaves Bench.blackboard (handler context) := by
  refine of_table (P := fun handler => ∀ context, Leaves Bench.blackboard (handler context)) ?_
    h.onOpen h.onRefresh hkey context
  exact h.operations

lemma operated (hoperated : kind.Operated context bench visible hooks result bench') :
    bench'.blackboard = bench.blackboard := by
  cases hoperated with
  | hidden => rfl
  | before hbefore => exact (h.before context).eq_of_run hbefore
  | unknown hbefore => exact (h.before context).eq_of_run hbefore
  | operation hbefore hhandler hoperation =>
    rw [(h.table hhandler context).eq_of_run hoperation, (h.before context).eq_of_run hbefore]
  | after hbefore hhandler hoperation hafter =>
    rw [(h.after context).eq_of_run hafter, (h.table hhandler context).eq_of_run hoperation,
      (h.before context).eq_of_run hbefore]

lemma attempted (hattempted : kind.Attempted name input c board hooks shown result left) :
    left.blackboard = board := by
  cases hattempted with
  | undecoded => rfl
  | @unjudged model _ _ _ hvisible => exact (h.visible (input.context name) model).eq_of_run hvisible
  | @unhandled model _ _ _ _ _ _ hvisible hoperated =>
    exact (h.operated hoperated).trans ((h.visible (input.context name) model).eq_of_run hvisible)
  | @unencoded model _ _ _ _ _ _ _ _ hvisible hoperated =>
    exact (h.operated hoperated).trans ((h.visible (input.context name) model).eq_of_run hvisible)
  | @complete model _ _ _ _ _ _ hvisible hoperated =>
    exact (h.operated hoperated).trans ((h.visible (input.context name) model).eq_of_run hvisible)

lemma rendered (hrendered : kind.Rendered input c board hooks report after) :
    after.blackboard = board := by
  cases hrendered with
  | broken hattempted => exact h.attempted hattempted
  | unfinished hattempted _ hfinish =>
    exact ((h.finish _).eq_of_run hfinish).trans (h.attempted hattempted)
  | finished hattempted _ hfinish =>
    exact ((h.finish _).eq_of_run hfinish).trans (h.attempted hattempted)

/-- If the hooks of a kind do not change the blackboard, its renderer does not either. -/
theorem renderer : kind.renderer.LeavesBlackboard := by
  intro input bench
  obtain ⟨c, board⟩ := bench
  obtain ⟨hooks, report, after, hrendered⟩ := kind.exists_rendered input c board
  rw [← Renderer.bench_of_render, hrendered.run]
  exact h.rendered hrendered

end LeavesBlackboard

end Kind

end PageRender
