import PageRender.Proofs.Audit.Findings
import PageRender.Proofs.Except

/-!
# Pages that an audit has accepted

Whether it is strict or not, an audit accepts only pages whose components have types, whose slots
name components of the page and have bindings that can be understood, and whose parallel groups do
not list their own components. If it is not strict it accepts all of them, and a strict one reports
the same, but takes conflicts for errors.
-/

namespace PageRender

open List

/-- Slots that can be planned: they name components that are known, and their bindings can be
understood. -/
def Plannable (keys : List String) (slots : List Slot) : Prop :=
  ∀ slot ∈ slots, slot.name ∈ keys ∧ ∃ bindings, Binding.ofSlot slot = .ok bindings

namespace Page

variable {p : Page}

/-- All rendering lists can be planned. -/
def WellListed (p : Page) : Prop :=
  ∀ key slots, p.rendering.get? key = some slots → Plannable p.components.keys slots

/-- Nothing is wrong with a page that would keep it out of a catalog. -/
structure WellFormed (p : Page) : Prop where
  typed : ∀ key c, p.components.get? key = some c → c.typeName ≠ ""
  named : ∀ key slots, p.rendering.get? key = some slots → ∀ slot ∈ slots,
    slot.name ∈ p.components.keys
  bound : ∀ key slots, p.rendering.get? key = some slots → ∀ slot ∈ slots, ∀ b ∈ slot.bindings,
    ∃ binding, Binding.ofWritten b = .ok binding ∧
      (binding.source = .params ∨ ∃ name ∈ p.components.keys, binding.source = .component name)
  grouped : ∀ parent children, p.layout.parallel.get? parent = some children → parent ∉ children

lemma WellFormed.wellListed (h : p.WellFormed) : p.WellListed := by
  intro key slots hslots slot hslot
  refine ⟨h.named key slots hslots slot hslot, ?_⟩
  cases hbindings : Binding.ofSlot slot with
  | ok bindings => exact ⟨bindings, rfl⟩
  | error fault =>
    obtain ⟨b, hb, hfault⟩ := exists_of_mapM_eq_error hbindings
    obtain ⟨binding, hbinding, -⟩ := h.bound key slots hslots slot hslot b hb
    cases hbinding.symm.trans hfault

/-- A page is well-formed if nothing but warnings can be said of it. -/
lemma wellFormed_iff : p.WellFormed ↔ ∀ finding, ¬p.Shows false .error finding := by
  constructor
  · intro h finding hshows
    generalize hseverity : Severity.error = severity at hshows
    cases hshows with
    | untyped hc htype => exact h.typed _ _ hc htype
    | strayRendering => cases hseverity
    | unknownComponent hslots hslot hunknown =>
      exact hunknown (h.named _ _ hslots _ (mem_of_getElem? hslot))
    | malformedBinding hslots hslot hb hread =>
      obtain ⟨binding, hbinding, -⟩ := h.bound _ _ hslots _ (mem_of_getElem? hslot) _ hb
      cases hbinding.symm.trans hread
    | unknownSource hslots hslot hb hread hsource hunknown =>
      obtain ⟨binding, hbinding, hsources⟩ := h.bound _ _ hslots _ (mem_of_getElem? hslot) _ hb
      cases hbinding.symm.trans hread
      obtain hparams | ⟨name, hname, hcomponent⟩ := hsources
      · cases hparams.symm.trans hsource
      · cases hcomponent.symm.trans hsource
        exact hunknown hname
    | repeatedTarget => cases hseverity
    | unknownParent => cases hseverity
    | unknownChild => cases hseverity
    | selfParallel hgroup hself => exact h.grouped _ _ hgroup hself
    | repeatedChild => cases hseverity
  · intro h
    constructor
    · intro key c hc htype
      exact h _ (.untyped hc htype)
    · intro key slots hslots slot hslot
      by_contra hunknown
      obtain ⟨i, hi⟩ := mem_iff_getElem?.mp hslot
      exact h _ (.unknownComponent hslots hi hunknown)
    · intro key slots hslots slot hslot b hb
      obtain ⟨i, hi⟩ := mem_iff_getElem?.mp hslot
      cases hread : Binding.ofWritten b with
      | error fault => exact absurd (.malformedBinding hslots hi hb hread) (h _)
      | ok binding =>
        refine ⟨binding, rfl, ?_⟩
        cases hsource : binding.source with
        | params => exact Or.inl rfl
        | component name =>
          refine Or.inr ⟨name, ?_, rfl⟩
          by_contra hunknown
          exact h _ (.unknownSource hslots hi hb hread hsource hunknown)
    · intro parent children hgroup hself
      exact h _ (.selfParallel hgroup hself)

end Page

namespace Audit

variable {a : Audit} {p : Page} {finding : Finding}

/-- What an audit reports: its findings in order, with their severities. -/
def issues (a : Audit) (p : Page) : List (Severity × Finding) :=
  p.findings.map fun finding => (a.severityOf finding, finding)

lemma mem_issues_iff {severity : Severity} :
    (severity, finding) ∈ a.issues p ↔ p.Shows a.strict severity finding := by
  rw [Page.shows_iff, issues, mem_map]
  constructor
  · rintro ⟨_, hfinding, ⟨⟩⟩
    exact ⟨hfinding, rfl⟩
  · rintro ⟨hfinding, rfl⟩
    exact ⟨finding, hfinding, rfl⟩

lemma accepts_iff : a.accepts p = true ↔ ∀ finding, ¬p.Shows a.strict .error finding := by
  rw [accepts, List.isEmpty_iff, errors, filter_eq_nil_iff]
  constructor
  · intro h finding hshows
    obtain ⟨hfinding, hseverity⟩ := Page.shows_iff.mp hshows
    exact h finding hfinding (decide_eq_true hseverity.symm)
  · intro h finding hfinding herror
    exact h finding (Page.shows_iff.mpr ⟨hfinding, (of_decide_eq_true herror).symm⟩)

lemma check_eq_ok_iff {findings : List Finding} :
    a.check p = .ok findings ↔ a.accepts p = true ∧ findings = p.findings := by
  rw [check, accepts, List.isEmpty_iff]
  cases a.errors p with
  | nil => simp [eq_comm]
  | cons first rest => simp

/-- A page that is not accepted is refused for the first of its errors. -/
lemma exists_first_error (h : a.accepts p = false) : ∃ before first after,
    p.findings = before ++ first :: after ∧
      (∀ finding ∈ before, a.severityOf finding ≠ .error) ∧ a.severityOf first = .error ∧
      a.check p = .error (.invalidPage p.scenario (first.line a.strict)) := by
  rw [accepts, List.isEmpty_eq_false_iff] at h
  obtain ⟨first, rest, herrors⟩ := exists_cons_of_ne_nil h
  obtain ⟨before, after, hfindings, hbefore, hfirst, -⟩ := filter_eq_cons_iff.mp herrors
  refine ⟨before, first, after, hfindings, ?_, by simpa using hfirst, ?_⟩
  · intro finding hfinding
    simpa using hbefore finding hfinding
  · rw [check, herrors]

lemma severity_strict (defect : Defect) : defect.severity true =
    if defect.isConflict then .error else defect.severity false := by
  cases defect <;> rfl

/-- A strict audit reports the same, but takes conflicts for errors. -/
lemma issues_strict (p : Page) : (⟨true⟩ : Audit).issues p =
    ((⟨false⟩ : Audit).issues p).map fun (severity, finding) =>
      (if finding.defect.isConflict then .error else severity, finding) := by
  simp only [issues, map_map]
  apply map_congr_left
  intro finding _
  exact congrArg (·, finding) (severity_strict finding.defect)

/-- What is an error without being strict is one for any audit. -/
lemma severity_eq_error {defect : Defect} (h : defect.severity false = .error) (strict : Bool) :
    defect.severity strict = .error := by
  cases strict with
  | false => exact h
  | true => rw [severity_strict, h, ite_self]

lemma accepts_lenient_iff : (⟨false⟩ : Audit).accepts p = true ↔ p.WellFormed := by
  rw [accepts_iff, Page.wellFormed_iff]

/-- A page that any audit accepts is accepted by one that is not strict. -/
lemma accepts_lenient (h : a.accepts p = true) : (⟨false⟩ : Audit).accepts p = true := by
  rw [accepts_iff] at h ⊢
  intro finding hshows
  obtain ⟨hfinding, herror⟩ := Page.shows_iff.mp hshows
  exact h finding (Page.shows_iff.mpr ⟨hfinding, (severity_eq_error herror.symm a.strict).symm⟩)

/-- An audit that accepts a page has been through all its slots. -/
theorem wellListed_of_accepts (h : a.accepts p = true) : p.WellListed :=
  (accepts_lenient_iff.mp (accepts_lenient h)).wellListed

/-- What an audit reports are the defects of a page, each with its severity and at its place. If the
audit is not strict, it accepts the pages that are well-formed and no others. A strict one reports
the same in the same order, but takes conflicts for errors, and so it accepts no page that the other
refuses. A page that is accepted passes with all that is reported of it; any other is refused for
the first of its errors. -/
theorem accepts_iff_wellFormed (p : Page) :
    ((⟨false⟩ : Audit).accepts p = true ↔ p.WellFormed) ∧
    (∀ (a : Audit) severity finding,
      (severity, finding) ∈ a.issues p ↔ p.Shows a.strict severity finding) ∧
    (⟨true⟩ : Audit).issues p = ((⟨false⟩ : Audit).issues p).map (fun (severity, finding) =>
      (if finding.defect.isConflict then .error else severity, finding)) ∧
    ((⟨true⟩ : Audit).accepts p = true → (⟨false⟩ : Audit).accepts p = true) ∧
    ∀ a : Audit,
      (∀ findings, a.check p = .ok findings ↔ a.accepts p = true ∧ findings = p.findings) ∧
      (a.accepts p = false → ∃ before first after, p.findings = before ++ first :: after ∧
        (∀ finding ∈ before, a.severityOf finding ≠ .error) ∧ a.severityOf first = .error ∧
        a.check p = .error (.invalidPage p.scenario
          ("error: " ++ first.location.path ++ ": " ++ first.defect.message))) := by
  refine ⟨accepts_lenient_iff, fun a severity finding => mem_issues_iff, issues_strict p,
    accepts_lenient, fun a => ⟨fun findings => check_eq_ok_iff, fun h => ?_⟩⟩
  obtain ⟨before, first, after, hfindings, hbefore, hfirst, hcheck⟩ := exists_first_error h
  have hline : first.line a.strict =
      "error: " ++ first.location.path ++ ": " ++ first.defect.message := by
    rw [severityOf] at hfirst
    rw [Finding.line, hfirst]
    rfl
  rw [hline] at hcheck
  exact ⟨before, first, after, hfindings, hbefore, hfirst, hcheck⟩

/-- Two groups contend for a child, and one of them belongs to no component. -/
def contendedPage : Page where
  scenario := "news"
  layout := { parallel := .ofList [("ghost", ["foot"]), ("head", ["list", "foot"])] }
  components := .ofList
    [("head", .ofType "" "panel"), ("list", .ofType "" "panel"), ("foot", .ofType "" "panel")]

/-- The contended child and the unknown parent are warnings. Only a strict audit refuses the page,
for the child, and it accepts the page without its groups. -/
theorem accepts_iff_wellFormed_contended :
    contendedPage.WellFormed ∧
    ((⟨false⟩ : Audit).issues contendedPage =
      [(.warning, ⟨.parallel "ghost", .unknownParent "ghost"⟩),
        (.warning, ⟨.parallel "head", .repeatedChild "foot"⟩)]) ∧
    (⟨true⟩ : Audit).accepts contendedPage = false ∧
    ((⟨true⟩ : Audit).check contendedPage = .error (.invalidPage "news"
      "error: hierarchy.parallel.head: 'foot' already belongs to another parallel group")) ∧
    (⟨true⟩ : Audit).accepts { contendedPage with layout := {} } = true ∧
    (⟨false⟩ : Audit).accepts { contendedPage with layout := {} } = true := by
  have hissues : (⟨false⟩ : Audit).issues contendedPage =
      [(.warning, ⟨.parallel "ghost", .unknownParent "ghost"⟩),
        (.warning, ⟨.parallel "head", .repeatedChild "foot"⟩)] := by decide +kernel
  have hfindings : contendedPage.findings = [⟨.parallel "ghost", .unknownParent "ghost"⟩,
      ⟨.parallel "head", .repeatedChild "foot"⟩] := by decide +kernel
  have hstrict : (⟨true⟩ : Audit).accepts contendedPage = false := by decide +kernel
  obtain ⟨hwellFormed, -, -, -, hcheck⟩ := accepts_iff_wellFormed contendedPage
  obtain ⟨-, -, -, hlenient, -⟩ := accepts_iff_wellFormed { contendedPage with layout := {} }
  have hbare : (⟨true⟩ : Audit).accepts { contendedPage with layout := {} } = true := by
    decide +kernel
  refine ⟨hwellFormed.mp (by decide +kernel), hissues, hstrict, ?_, hbare, hlenient hbare⟩
  obtain ⟨_, first, _, hsplit, -, hfirst, herror⟩ := (hcheck ⟨true⟩).2 hstrict
  have hmem : first ∈ contendedPage.findings := by
    rw [hsplit]
    exact mem_append_right _ mem_cons_self
  rw [hfindings, mem_cons, mem_singleton] at hmem
  obtain rfl | rfl := hmem
  · cases hfirst
  · rw [herror]
    decide

end Audit

end PageRender
