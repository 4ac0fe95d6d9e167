import PageRender.Proofs.Dispatch.Passage
import PageRender.Proofs.Pass.Keep
import PageRender.Proofs.Service.Effect

/-!
# The components of a pass

Which components have rendered in a pass can be read off the log: those of the nodes that have
succeeded. All others are as they were at the start. If no component has two nodes, none is replaced
after it has rendered, so that what a node has found at its start is still there when it ends.
-/

namespace PageRender

open List

lemma RenderTree.nameOf_of_node {t : RenderTree} {i : Nat} {n : Node} (h : t.node? i = some n) :
    t.nameOf i = n.step.name := by
  simp [nameOf, h, Node.name]

/-- The nodes of a tree render different components. -/
def RenderTree.Distinct (t : RenderTree) : Prop :=
  ∀ {i j}, i < t.size → j < t.size → t.nameOf i = t.nameOf j → i = j

lemma RenderTree.getElem?_names_of_build {t : RenderTree} {steps : List Step}
    {parallel : Dict (List String)} (h : build steps parallel = .ok t) {i : Nat} (hi : i < t.size) :
    (steps.map Step.name)[i]? = some (t.nameOf i) := by
  rw [size_build h] at hi
  have hstep : t.step? i = some steps[i] := by rw [step?_build h, getElem?_eq_getElem hi]
  rw [nameOf_eq hstep, getElem?_map, getElem?_eq_getElem hi, Option.map_some]

lemma RenderTree.distinct_of_build {t : RenderTree} {steps : List Step}
    {parallel : Dict (List String)} (h : build steps parallel = .ok t)
    (hnames : (steps.map Step.name).Nodup) : t.Distinct := by
  intro i j hi hj hij
  have hsome : (steps.map Step.name)[i]? = (steps.map Step.name)[j]? := by
    rw [getElem?_names_of_build h hi, getElem?_names_of_build h hj, hij]
  rw [size_build h] at hi
  exact (getElem?_inj (by simpa using hi) hnames).mp hsome

/-- What the log of a walk says of the components of the pass. -/
structure Ledger (t : RenderTree) (start : Pass) (log : List LogEntry)
    (d : Dispatch Pass Pass.Job) : Prop where
  rendered : ∀ {name}, name ∈ d.world.rendered ↔
    name ∈ start.rendered ∨ ∃ i, .succeeded i ∈ log ∧ t.nameOf i = name
  untouched : ∀ {name}, (∀ i, .succeeded i ∈ log → t.nameOf i ≠ name) →
    d.world.components.get? name = start.components.get? name
  keys : d.world.components.keys = start.components.keys
  running_known : ∀ {i job}, d.phase? i = some (.running job) →
    t.nameOf i ∈ start.components.keys
  succeeded_known : ∀ {i}, .succeeded i ∈ log → t.nameOf i ∈ start.components.keys

namespace Ledger

variable {s : Service} {request : Request} {t : RenderTree} {start : Pass}
  {log es : List LogEntry} {d d' : Dispatch Pass Pass.Job} {m : Move} {moves rest : List Move}
  {root i : Nat} {job : Pass.Job} {step : Step}

lemma initial (r : Runner Pass Pass.Job) (ht : r.tree = t) (hroot : root < t.size) :
    Ledger t start [.dispatched root] (Dispatch.initial r root start) := by
  subst ht
  refine ⟨by simp [Dispatch.initial], fun _ => rfl, rfl, ?_, by simp⟩
  intro i job hi
  exact absurd hi (Dispatch.not_running_initial hroot job)

/-- A move after which no more nodes have succeeded. -/
lemma of_same (h : Ledger t start log d) (hes : ∀ e ∈ es, e.success? = none)
    (hrendered : d'.world.rendered = d.world.rendered)
    (hcomponents : d'.world.components = d.world.components)
    (hrunning : ∀ {i job}, d'.phase? i = some (.running job) → t.nameOf i ∈ start.components.keys) :
    Ledger t start (log ++ es) d' := by
  have hsucceeded {i : Nat} : .succeeded i ∈ log ++ es ↔ .succeeded i ∈ log := by
    rw [mem_append, or_iff_left]
    intro hi
    cases hes _ hi
  constructor
  · intro name
    simp only [hrendered, hsucceeded]
    exact h.rendered
  · intro name hname
    rw [hcomponents]
    exact h.untouched fun i hi => hname i (mem_append_left es hi)
  · rw [hcomponents]
    exact h.keys
  · exact hrunning
  · intro i hi
    exact h.succeeded_known (hsucceeded.mp hi)

/-- A node that runs has its component in the pass. -/
lemma mem_keys_of_running (h : Ledger t start log d) (hphase : d.phase? i = some (.running job))
    (hstep : t.step? i = some step) : step.name ∈ d.world.components.keys := by
  rw [h.keys, ← RenderTree.nameOf_eq hstep]
  exact h.running_known hphase

/-- A render that is put in place. -/
lemma of_committed (h : Ledger t start log d) (hphase : d.phase? i = some (.running job))
    (hstep : t.step? i = some step) {c : Component} {report : Report} {next : List Nat}
    (hcommitted : Pass.Committed step c report d.world d'.world)
    (hrunning : ∀ {i job}, d'.phase? i = some (.running job) → t.nameOf i ∈ start.components.keys) :
    Ledger t start (log ++ .succeeded i :: next.map .dispatched) d' := by
  have hname : t.nameOf i = step.name := RenderTree.nameOf_eq hstep
  have hsucceeded {j : Nat} : .succeeded j ∈ log ++ .succeeded i :: next.map .dispatched ↔
      .succeeded j ∈ log ∨ j = i := by simp
  constructor
  · intro name
    rw [hcommitted.rendered, h.rendered, or_assoc]
    simp [hsucceeded, or_and_right, exists_or, hname, eq_comm]
  · intro name hother
    have hne : name ≠ step.name := by
      rw [← hname]
      exact (hother i (hsucceeded.mpr (Or.inr rfl))).symm
    rw [hcommitted.others hne]
    exact h.untouched fun j hj => hother j (hsucceeded.mpr (Or.inl hj))
  · exact hcommitted.keys.trans h.keys
  · exact hrunning
  · intro j hj
    rcases hsucceeded.mp hj with hold | rfl
    · exact h.succeeded_known hold
    · exact h.running_known hphase

/-- A node that starts has found its component. -/
lemma running_known_of_rule (h : Ledger t start log d)
    (hcoherent : Dispatch.Coherent (s.runner request t) log d) (ht : t.Rooted)
    (hrule : Dispatch.Rule (s.runner request t) d m es d')
    (hi : d'.phase? i = some (.running job)) : t.nameOf i ∈ start.components.keys := by
  rcases hcoherent.running_of_rule ht hrule hi with hold | ⟨-, -, node, hnode, hstart⟩
  · exact h.running_known hold
  · obtain ⟨-, c, hc, -⟩ := Pass.startStep_eq_ok hstart
    rw [RenderTree.nameOf_of_node (t := t) hnode, ← h.keys]
    exact Dict.mem_keys_of_get? hc

lemma of_course (ht : t.Rooted) (hroot : t.root? = some root)
    (h : Dispatch.Course (s.runner request t) root start moves log d) : Ledger t start log d := by
  obtain ⟨rfl, hsize⟩ := ht.root?_eq_some hroot
  refine Service.course_induction ht hroot ?_ ?_ h
  · exact initial _ rfl hsize
  · intro moves log d m es d' hcourse hcoherent hrule heffect ih
    have hrunning {i : Nat} {job : Pass.Job} (hi : d'.phase? i = some (.running job)) :
        t.nameOf i ∈ start.components.keys := ih.running_known_of_rule hcoherent ht hrule hi
    generalize hworld : d'.world = world at heffect
    cases heffect with
    | quiet es hes =>
      refine ih.of_same (fun e he => (hes e he).1) ?_ ?_ hrunning <;> rw [hworld]
    | refused i step f hphase hstep hjob =>
      refine ih.of_same (by simp [LogEntry.success?]) ?_ ?_ hrunning <;> rw [hworld] <;> rfl
    | rendered i step job report bench next hphase hstep hrender =>
      have hcommitted : Pass.Committed step bench.subject report d.world d'.world := by
        rw [hworld]
        exact Pass.committed_commit (ih.mem_keys_of_running hphase hstep)
      exact ih.of_committed hphase hstep hcommitted hrunning
    | broken i step job halt bench hphase hstep hrender =>
      refine ih.of_same (by simp [LogEntry.success?]) ?_ ?_ hrunning <;> rw [hworld] <;> rfl

/-- A node that has succeeded has its component in the pass. -/
lemma exists_component (h : Ledger t start log d) (hi : .succeeded i ∈ log) :
    ∃ c, d.world.components.get? (t.nameOf i) = some c := by
  have hmem : t.nameOf i ∈ d.world.components.keys := by
    rw [h.keys]
    exact h.succeeded_known hi
  exact Dict.mem_keys_iff.mp hmem

/-! ### Trees whose nodes render different components -/

section

variable (h : Ledger t start log d) (hcoherent : Dispatch.Coherent (s.runner request t) log d)
  (hd : t.Distinct)

include h hcoherent hd

/-- A node that has not succeeded finds its component as it was at the start. -/
lemma untouched_of_unfinished (hi : i < t.size) (hlog : .succeeded i ∉ log) :
    d.world.components.get? (t.nameOf i) = start.components.get? (t.nameOf i) := by
  refine h.untouched fun j hj hname => hlog ?_
  rwa [← hd (hcoherent.lt_size _ hj) hi hname]

lemma not_rendered_of_unfinished (hstart : start.rendered = []) (hi : i < t.size)
    (hlog : .succeeded i ∉ log) : t.nameOf i ∉ d.world.rendered := by
  rw [h.rendered, hstart]
  rintro (hname | ⟨j, hj, hname⟩)
  · cases hname
  · exact hlog (by rwa [← hd (hcoherent.lt_size _ hj) hi hname])

lemma keeps_of_effect (hstart : start.rendered = []) {p : Pass}
    (heffect : Service.Effect (s.setting request) t d es p) : d.world.Keeps p := by
  cases heffect with
  | quiet es hes => exact .refl _
  | refused i step f hphase hstep hjob => exact Pass.failed_countFailure.keeps
  | rendered i step job report bench next hphase hstep hrender =>
    apply (Pass.committed_commit (h.mem_keys_of_running hphase hstep)).keeps
    rw [← RenderTree.nameOf_eq hstep]
    exact h.not_rendered_of_unfinished hcoherent hd hstart
      (hcoherent.lt_size_of_dispatched (hcoherent.dispatched_of_phase hphase nofun))
      (hcoherent.succeeded_not_mem hphase rfl)
  | broken i step job halt bench hphase hstep hrender => exact Pass.failed_countFailure.keeps

end

end Ledger

/-- A pass at its beginning: its tree has a root and renders no component twice, and nothing has
rendered. -/
structure Beginning (t : RenderTree) (root : Nat) (start : Pass) : Prop where
  rooted : t.Rooted
  root?_eq : t.root? = some root
  distinct : t.Distinct
  rendered_eq : start.rendered = []

namespace Beginning

variable {s : Service} {request : Request} {t : RenderTree} {start : Pass} {log : List LogEntry}
  {d d' : Dispatch Pass Pass.Job} {m : Move} {moves rest : List Move} {root i : Nat}
  {job : Pass.Job} {step : Step}

lemma coherent (hb : Beginning t root start)
    (h : Dispatch.Course (s.runner request t) root start moves log d) :
    Dispatch.Coherent (s.runner request t) log d :=
  Dispatch.Course.coherent (r := s.runner request t) hb.rooted hb.root?_eq h

lemma ledger (hb : Beginning t root start)
    (h : Dispatch.Course (s.runner request t) root start moves log d) : Ledger t start log d :=
  .of_course hb.rooted hb.root?_eq h

/-- What no node renders is as it was at the start. -/
lemma untouched_of_unplanned (hb : Beginning t root start)
    (h : Dispatch.Course (s.runner request t) root start moves log d) {name : String}
    (hname : ∀ i < t.size, t.nameOf i ≠ name) :
    d.world.components.get? name = start.components.get? name :=
  (hb.ledger h).untouched fun i hi => hname i ((hb.coherent h).lt_size _ hi)

/-- A panic in a component is no crash, so that nothing but its render changes the pass. -/
lemma effect_of_move (hb : Beginning t root start)
    (h : Dispatch.Course (s.runner request t) root start moves log d)
    (hm : d.move? (s.runner request t) m = some d') :
    Service.Effect (s.setting request) t d (d.record (s.runner request t) m) d'.world := by
  have hcoherent := hb.coherent h
  have hcrash := hcoherent.crashedAmong_eq_nil (h.crashed_not_mem (r := s.runner request t)
    hb.rooted hb.root?_eq (s.runner_returns request t))
  exact .of_rule hcrash (.of_move? hcoherent.size_eq hm)

lemma keeps_of_move (hb : Beginning t root start)
    (h : Dispatch.Course (s.runner request t) root start moves log d)
    (hm : d.move? (s.runner request t) m = some d') : d.world.Keeps d'.world :=
  (hb.ledger h).keeps_of_effect (hb.coherent h) hb.distinct hb.rendered_eq (hb.effect_of_move h hm)

/-- Whatever moves come next, the pass keeps what it has. -/
lemma keeps_of_replay (hb : Beginning t root start)
    (h : Dispatch.Course (s.runner request t) root start moves log d)
    (hrest : d.replay (s.runner request t) rest = some d') : d.world.Keeps d'.world := by
  induction rest generalizing moves log d with
  | nil =>
    cases hrest
    exact .refl _
  | cons m rest ih =>
    rw [Dispatch.replay_cons, Option.bind_eq_some_iff] at hrest
    obtain ⟨d₁, hm, hrest⟩ := hrest
    exact (hb.keeps_of_move h hm).trans (ih (.move m h hm) hrest)

/-- A running node would find now what it has found at its start. -/
lemma finds_of_running (hb : Beginning t root start)
    (h : Dispatch.Course (s.runner request t) root start moves log d)
    (hi : d.phase? i = some (.running job)) (hstep : t.step? i = some step) :
    Pass.Finds (s.setting request) start d.world step job := by
  induction h with
  | initial =>
    obtain ⟨rfl, hsize⟩ := hb.rooted.root?_eq_some hb.root?_eq
    exact absurd hi (Dispatch.not_running_initial (r := s.runner request t) hsize job)
  | @move moves log d d' m h hm ih =>
    have hcoherent := hb.coherent h
    have hrule := Dispatch.Rule.of_move? hcoherent.size_eq hm
    rcases hcoherent.running_of_rule hb.rooted hrule hi with
      hold | ⟨-, hqueued, node, hnode, hjob⟩
    · exact (ih hold).keeps (hb.keeps_of_move h hm)
    · obtain ⟨hjob, hworld⟩ := Pass.startStep_eq_ok_iff.mp hjob
      cases (RenderTree.step?_of_node hnode).symm.trans hstep
      rw [hworld, ← Pass.jobOf_eq_ok_iff_finds]
      · exact hjob
      · rw [← RenderTree.nameOf_of_node hnode]
        exact (hb.ledger h).untouched_of_unfinished hcoherent hb.distinct
          (RenderTree.lt_size_of_node hnode) (hcoherent.succeeded_not_mem hqueued rfl)

end Beginning

lemma Service.beginning_of_ready {s : Service} {request : Request} {ready : Ready} {root : Nat}
    (h : s.ready request = .ok ready) (hroot : ready.tree.root? = some root) :
    Beginning ready.tree root ready.pass := by
  obtain ⟨prepared, hprepared, hbuild, hready⟩ := exists_prepared_of_ready h
  refine ⟨RenderTree.rooted_of_build hbuild [], hroot, ?_, ?_⟩
  · exact RenderTree.distinct_of_build hbuild (nodup_of_prepare hprepared)
  · rw [hready]
    rfl

end PageRender
