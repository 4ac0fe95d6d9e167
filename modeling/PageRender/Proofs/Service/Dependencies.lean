import PageRender.Kind.Plain
import PageRender.Proofs.Service.Ledger

/-!
# Dependencies of a node

A node whose bindings read components of nodes above it finds all of them rendered. For it is
dispatched only when every node above it has succeeded, and what has succeeded has rendered and
stays in the pass.
-/

namespace PageRender

open List

namespace RenderTree

variable {t : RenderTree} {i : Nat}

/-- Every binding to a component names one that is rendered by a node above. -/
def BoundAbove (t : RenderTree) : Prop :=
  ∀ {i step b name}, t.step? i = some step → b ∈ step.bindings → b.source = .component name →
    ∃ a, t.Above a i ∧ t.nameOf a = name

/-- Whether a node above renders what a binding reads. -/
def findsAbove (t : RenderTree) (i : Nat) (b : Binding) : Bool :=
  match b.source with
  | .params => true
  | .component name => (range t.size).any fun a => t.isAncestor a i && t.nameOf a == name

/-- Whether every binding to a component names one that is rendered by a node above. -/
def bindsAbove (t : RenderTree) : Bool :=
  (range t.size).all fun i => (t.step? i).all fun step => step.bindings.all (t.findsAbove i)

lemma findsAbove_iff (ht : t.Rooted) (hi : i < t.size) {b : Binding} : t.findsAbove i b = true ↔
    ∀ name, b.source = .component name → ∃ a, t.Above a i ∧ t.nameOf a = name := by
  cases hsource : b.source with
  | params => simp [findsAbove, hsource]
  | component name =>
    have hlt {a : Nat} (ha : t.Above a i) : a < t.size := by
      obtain ⟨k, hk⟩ := ht.above_iff_up.mp ha
      exact ht.up_lt_size hi hk
    simp only [findsAbove, hsource, any_eq_true, mem_range, Bool.and_eq_true, beq_iff_eq,
      ht.isAncestor_iff, Source.component.injEq, forall_eq']
    constructor
    · rintro ⟨a, -, ha⟩
      exact ⟨a, ha⟩
    · rintro ⟨a, ha⟩
      exact ⟨a, hlt ha.1, ha⟩

lemma bindsAbove_iff (ht : t.Rooted) : t.bindsAbove = true ↔ t.BoundAbove := by
  simp only [bindsAbove, all_eq_true, mem_range, Option.all_eq_true_iff_get]
  constructor
  · intro h i step b name hstep hb hname
    have hi := lt_size_of_step hstep
    have hall := h i hi
    rw [hstep] at hall
    exact (findsAbove_iff ht hi).mp (hall rfl b hb) name hname
  · intro h i hi hsome b hb
    rw [findsAbove_iff ht hi]
    intro name hname
    exact h (Option.eq_some_of_isSome hsome) hb hname

end RenderTree

namespace Service

variable {t : RenderTree} {start : Pass} {moves : List Move} {log : List LogEntry}
  {d : Dispatch Pass Pass.Job} {root i : Nat} {step : Step}

/-- Whatever the components do, and in whatever order their renders end: as soon as a node has been
dispatched, the components of all nodes above it have rendered and are in the pass. So if bindings
read those components only, a node is never refused because one of them has not rendered. -/
theorem dependencies_have_rendered {steps : List Step} {parallel : Dict (List String)}
    (hbuild : RenderTree.build steps parallel = .ok t) (hbound : t.BoundAbove) (s : Service)
    (request : Request) (hroot : t.root? = some root)
    (hcourse : Dispatch.Course (s.runner request t) root start moves log d)
    (hi : .dispatched i ∈ log) (hstep : t.step? i = some step) :
    (∀ a, t.Above a i → t.nameOf a ∈ d.world.rendered ∧
      ∃ c, d.world.components.get? (t.nameOf a) = some c) ∧
    ∀ component dependency,
      (d.world.sources (s.setting request)).resolve step.name step.bindings ≠
        .error (.notRendered component dependency) ∧
      (d.world.startStep (s.setting request) step).1 ≠
        .error (.notRendered component dependency) := by
  have ht : t.Rooted := RenderTree.rooted_of_build hbuild []
  have hcoherent := hcourse.coherent (r := s.runner request t) ht hroot
  have hledger := Ledger.of_course ht hroot hcourse
  have habove : ∀ a, t.Above a i → t.nameOf a ∈ d.world.rendered ∧
      ∃ c, d.world.components.get? (t.nameOf a) = some c := by
    intro a ha
    have hsucceeded : .succeeded a ∈ log := hcoherent.succeeded_of_above hi ha
    exact ⟨hledger.rendered.mpr (Or.inr ⟨a, hsucceeded, rfl⟩),
      hledger.exists_component hsucceeded⟩
  have hresolve : ∀ component dependency,
      (d.world.sources (s.setting request)).resolve step.name step.bindings ≠
        .error (.notRendered component dependency) := by
    intro component dependency herror
    obtain ⟨b, hb, hvalue⟩ := Sources.exists_of_resolve_eq_error herror
    refine Sources.value_ne_notRendered ?_ component dependency hvalue
    intro name hname
    obtain ⟨a, ha, rfl⟩ := hbound hstep hb hname
    obtain ⟨hrendered, c, hc⟩ := habove a ha
    exact ⟨c.stateFields, Sources.state?_eq_some_iff.mpr ⟨hrendered, c, hc, rfl⟩⟩
  refine ⟨habove, fun component dependency => ⟨hresolve component dependency, ?_⟩⟩
  intro herror
  exact hresolve component dependency (Pass.resolve_of_startStep_notRendered herror)

end Service

/-- The kind of components that pick a colour when the page opens. -/
def Kind.picker : Kind Fields :=
  { Kind.stateOnly "picker" with
    onOpen := fun _ => Work.change (·.insert "color" (.ofString "blue")) }

/-- A page with a head and, beside each other, a foot and a list that takes over the head's colour.
-/
def Page.colors : Page where
  scenario := "colors"
  layout := { parallel := .ofList [("head", ["list", "foot"])] }
  components := .ofList (["head", "list", "foot"].map fun name => (name, .ofType name "picker"))
  rendering := .ofList [(Page.defaultKey, [{ name := "head" },
    { name := "list", bindings := [⟨"hue", "\x7b\x7b head.color \x7d\x7d"⟩] }, { name := "foot" }])]

def Service.colors : Service where
  catalog := { scenarios := .ofList [("colors", (Scenario.ofPage .colors).withKind .picker)] }

def Request.colors : Request where
  scenario := "colors"

namespace Service

lemma exists_ready_colors : ∃ ready, Service.colors.ready .colors = .ok ready ∧
    ready.tree.root? = some 0 ∧ ready.tree.BoundAbove := by
  obtain ⟨ready, hready⟩ : ∃ ready, Service.colors.ready .colors = .ok ready :=
    exists_ok_of_toBool (by decide +kernel)
  have hroot := of_any_toOption hready (P := fun ready => ready.tree.root? == some 0)
    (by decide +kernel)
  have hbound := of_any_toOption hready (P := fun ready => ready.tree.bindsAbove)
    (by decide +kernel)
  obtain ⟨prepared, -, hbuild, -⟩ := exists_prepared_of_ready hready
  exact ⟨ready, hready, beq_iff_eq.mp hroot,
    (RenderTree.bindsAbove_iff (RenderTree.rooted_of_build hbuild [])).mp hbound⟩

/-- When the list of that page can start, the head has rendered, and the list is not refused. -/
theorem dependencies_have_rendered_list :
    ∃ ready moves log d step, Service.colors.ready .colors = .ok ready ∧
      ready.tree.BoundAbove ∧
      Dispatch.Course (Service.colors.runner .colors ready.tree) 0 ready.pass moves log d ∧
      .dispatched 1 ∈ log ∧ ready.tree.step? 1 = some step ∧ step.bindings ≠ [] ∧
      ready.tree.nameOf 0 ∈ d.world.rendered ∧ ∀ component dependency,
        (d.world.startStep (Service.colors.setting .colors) step).1 ≠
          .error (.notRendered component dependency) := by
  obtain ⟨ready, hready, hroot, hbound⟩ := exists_ready_colors
  obtain ⟨prepared, -, hbuild, -⟩ := exists_prepared_of_ready hready
  have ht : ready.tree.Rooted := RenderTree.rooted_of_build hbuild []
  have hreplay := of_any_toOption hready (P := fun ready =>
    let r := Service.colors.runner .colors ready.tree
    ((Dispatch.initial r 0 ready.pass).replay r [.start 0, .settle 0]).any (·.isQueued 1))
    (by decide +kernel)
  have hlist := of_any_toOption hready (P := fun ready =>
    (ready.tree.step? 1).any fun step => !step.bindings.isEmpty) (by decide +kernel)
  have habove := of_any_toOption hready (P := fun ready => ready.tree.isAncestor 0 1)
    (by decide +kernel)
  obtain ⟨d, hd, hqueued⟩ := (Option.any_eq_true _ _).mp hreplay
  obtain ⟨step, hstep, hbindings⟩ := (Option.any_eq_true _ _).mp hlist
  obtain ⟨log, hcourse⟩ := Dispatch.exists_course_of_replay hd
  have hdispatched : .dispatched 1 ∈ log :=
    (hcourse.coherent (r := Service.colors.runner .colors ready.tree) ht hroot).dispatched_of_phase
      (Dispatch.isQueued_iff.mp hqueued) nofun
  obtain ⟨hrendered, hfinds⟩ :=
    dependencies_have_rendered hbuild hbound .colors .colors hroot hcourse hdispatched hstep
  exact ⟨ready, _, log, d, step, hready, hbound, hcourse, hdispatched, hstep,
    by simpa using hbindings, (hrendered 0 (ht.isAncestor_iff.mp habove)).1,
    fun component dependency => (hfinds component dependency).2⟩

end Service

end PageRender
