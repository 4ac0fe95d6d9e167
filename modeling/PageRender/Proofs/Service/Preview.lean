import PageRender.Proofs.RenderTree.Unmoved
import PageRender.Proofs.Service.Faithful

/-!
# Previews foretell passes

What a preview says of a pass that is successful: its mode, which components report and with which
operations, and in which order as far as the order is settled. It is settled altogether if no edge
is parallel.
-/

namespace PageRender

open List

namespace RenderTree

variable {t : RenderTree} {steps : List Step} {parallel : Dict (List String)} {i : Nat}

lemma fst_of_item? (hi : i < t.size) : (t.item? i).map Prod.fst = some (t.nameOf i) := by
  obtain ⟨n, hn⟩ := exists_node hi
  simp [item?, step?, hn, nameOf_of_node hn, Step.item]

lemma filterMap_range_getElem? {α : Type} (l : List α) :
    (range l.length).filterMap (fun i => l[i]?) = l := by
  induction l with
  | nil => rfl
  | cons a l ih => simpa [range_succ_eq_map, filterMap_map, Function.comp_def] using ih

/-- The nodes in their order are the steps as they were planned. -/
lemma items_of_build (h : build steps parallel = .ok t) :
    (range t.size).filterMap t.item? = steps.map Step.item := by
  have hitem : t.item? = fun i => (steps.map Step.item)[i]? := by
    funext i
    rw [item?, step?_build h, getElem?_map]
  rw [hitem, size_build h, ← length_map Step.item, filterMap_range_getElem?]

end RenderTree

namespace Dispatch

variable {t : RenderTree} {completed : List Nat}

lemma Complete.lt_size (h : Complete t completed) {i : Nat} (hi : i ∈ completed) : i < t.size :=
  mem_range.mp (h.perm.mem_iff.mp hi)

lemma Complete.names (h : Complete t completed) :
    (completed.filterMap t.item?).map Prod.fst = completed.map t.nameOf := by
  rw [map_filterMap, ← filterMap_eq_map]
  exact filterMap_congr fun i hi => RenderTree.fst_of_item? (h.lt_size hi)

end Dispatch

/-- The kind of components that have no model. -/
def Kind.blank (typeName : String) : Kind Unit where
  name := typeName
  fresh := ()
  decode _ _ _ := .ok ()
  encode _ := pure ()

namespace Service

variable {s : Service} {request : Request} {prepared : Prepared} {t : RenderTree}
  {start pass : Pass} {moves : List Move} {log : List LogEntry} {completed : List Nat}
  {response : Response}

lemma preview_eq (h : s.prepare request = .ok prepared)
    (ht : RenderTree.build prepared.plan.steps prepared.parallel = .ok t) : s.preview request =
      .ok ⟨request.scenario, prepared.plan.mode, prepared.plan.steps.map Step.item, t.edges⟩ := by
  have htree : Prepared.tree prepared = .ok t := by
    rw [Prepared.tree, ht]
    rfl
  rw [preview, h]
  change (Prepared.tree prepared >>= _) = _
  rw [htree]
  rfl

/-- A pass that is over without a fault has reported what its nodes have done, in the order of their
completion. -/
lemma reports_of_execution (hd : t.Distinct) (ht : t.Rooted) (hnamed : Named start.components)
    (hstart : start.reports = [])
    (h : Dispatch.Execution (s.runner request t) start moves log (.ok completed) pass) :
    pass.reports.map Report.item = completed.filterMap t.item? := by
  obtain ⟨-, rfl⟩ := (h.outcome_eq_ok_iff ht (s.runner_returns request t)).mp rfl
  generalize hok : (.ok (log.filterMap LogEntry.success?) : Except Fault (List Nat)) = outcome at h
  cases h with
  | empty hroot => simp [hstart]
  | ended hroot h hover =>
    rw [(Faithful.of_course hd hnamed ht hroot h).reports, hstart, map_nil, nil_append]

lemma Answers.exists_execution (h : s.Answers request (.ok response)) :
    ∃ ready moves log completed pass, s.ready request = .ok ready ∧
    Dispatch.Execution (s.runner request ready.tree) ready.pass moves log (.ok completed) pass ∧
    response.mode = ready.mode ∧ response.reports = pass.reports := by
  generalize hanswer : (.ok response : Except Halt Response) = a at h
  cases h with
  | refused f h => cases hanswer
  | overloaded ready p h hload => cases hanswer
  | ended ready moves log outcome pass h hload hrun =>
    obtain ⟨-, completed, rfl, rfl⟩ := answer_eq_ok_iff.mp (mapError_eq_ok_iff.mp hanswer.symm)
    exact ⟨ready, moves, log, completed, pass, h, hrun, rfl, rfl⟩

/-- Whatever order the components of a successful pass have rendered in, the preview of its request
is there and has the same mode. Every component that it names reports once, with the operation that
it names, and the components of an edge report in the order of the edge. If no edge is parallel, the
reports are in the order of the preview. The answer that is given is one of those considered. -/
theorem preview_foretells_answers (hc : s.catalog.FromPages) (request : Request) :
    s.Answers request (s.render request) ∧
    ∀ response, s.Answers request (.ok response) →
      ∃ preview, s.preview request = .ok preview ∧ preview.mode = response.mode ∧
        (response.reports.map Report.item).Perm preview.items ∧
        (preview.items.map Prod.fst).Nodup ∧
        (∀ e ∈ preview.edges, [e.parent, e.child] <+ response.reports.map Report.component) ∧
        ((∀ e ∈ preview.edges, e.parallel = false) →
          response.reports.map Report.item = preview.items) := by
  refine ⟨s.answers_render request, fun response h => ?_⟩
  obtain ⟨ready, moves, log, completed, pass, hready, hrun, hmode, hreports⟩ := h.exists_execution
  obtain ⟨prepared, hprepared, hbuild, hreadyMode, hcomponents, hnone⟩ := ready_eq_ok hready
  obtain ⟨hnames, hnamed⟩ := sound_of_prepare hc hprepared
  have ht : ready.tree.Rooted := RenderTree.rooted_of_build hbuild []
  have hitems : response.reports.map Report.item = completed.filterMap ready.tree.item? := by
    rw [hreports]
    exact reports_of_execution (RenderTree.distinct_of_build hbuild hnames) ht
      (hcomponents ▸ hnamed) hnone hrun
  have hcomplete : Dispatch.Complete ready.tree completed :=
    hrun.complete_of_ok ht (s.runner_returns request ready.tree)
  refine ⟨_, preview_eq hprepared hbuild, by rw [hmode, hreadyMode], ?_, ?_, fun e he => ?_,
    fun hedges => ?_⟩
  · rw [hitems, ← RenderTree.items_of_build hbuild]
    exact hcomplete.perm.filterMap _
  · rw [map_map]
    exact hnames
  · obtain ⟨p, c, hp, hparent, hchild⟩ := RenderTree.exists_of_mem_edges he
    have hcomponents : response.reports.map Report.component = completed.map ready.tree.nameOf := by
      rw [← hcomplete.names, ← hitems, map_map]
      rfl
    have hpc : [p, c] <+ completed :=
      hcomplete.above (RenderTree.lt_size_of_parent hp) (.single ((ht.mem_children p c).mpr hp))
    rw [hparent, hchild, hcomponents]
    exact hpc.map ready.tree.nameOf
  · rw [hitems, hcomplete.eq_range (RenderTree.above_of_lt hbuild hedges)]
    exact RenderTree.items_of_build hbuild

/-- A page that opens with three components, two of which may render together. -/
def threePanels : Page where
  scenario := "news"
  layout := { parallel := .ofList [("head", ["list", "foot"])] }
  components := .ofList
    [("head", .ofType "" "panel"), ("list", .ofType "" "panel"), ("foot", .ofType "" "panel")]

/-- All three components report when the page opens, as the preview says. -/
theorem preview_foretells_answers_group :
    ∃ (s : Service) (response : Response) (preview : Preview), s.catalog.FromPages ∧
      s.render { scenario := "news" } = .ok response ∧
      s.preview { scenario := "news" } = .ok preview ∧
      preview.items = ["head", "list", "foot"].map (fun name => (name, "__Initialize__")) ∧
      (response.reports.map Report.item).Perm preview.items := by
  set scenario := [(Kind.blank "panel").renderer].foldl Scenario.withRenderer (.ofPage threePanels)
    with hscenario
  obtain ⟨catalog, hcatalog⟩ : ∃ catalog, kept (Catalog.register {} scenario) = .ok catalog :=
    exists_ok_of_toBool (by decide +kernel)
  have hpages : catalog.FromPages :=
    Catalog.fromPages_empty.register threePanels _ (kept_eq_ok_iff.mp hcatalog)
  have hrender : (kept (Catalog.register {} scenario)).toOption.any (fun catalog =>
      (render { catalog } { scenario := "news" }).toBool) = true := by decide +kernel
  rw [hcatalog] at hrender
  obtain ⟨response, hresponse⟩ := exists_ok_of_toBool hrender
  have hitems : (kept (Catalog.register {} scenario)).toOption.bind (fun catalog =>
      (preview { catalog } { scenario := "news" }).toOption.map Preview.items) =
      some (["head", "list", "foot"].map fun name => (name, "__Initialize__")) := by decide +kernel
  obtain ⟨hanswer, hforetells⟩ :=
    preview_foretells_answers (s := { catalog }) hpages { scenario := "news" }
  rw [hresponse] at hanswer
  obtain ⟨preview, hpreview, -, hperm, -⟩ := hforetells response hanswer
  rw [hcatalog] at hitems
  refine ⟨{ catalog }, response, preview, hpages, hresponse, hpreview, ?_, hperm⟩
  simpa [Except.toOption, hpreview] using hitems

end Service

end PageRender
