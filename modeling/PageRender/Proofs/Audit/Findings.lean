import PageRender.Audit
import PageRender.Proofs.Dict

/-!
# What an audit finds

What is wrong with a page, said without the steps in which an audit goes through it: a relation with
one constructor for every kind of defect, `Page.Shows`. An audit finds exactly this, at exactly
these places and with these severities.
-/

namespace PageRender

open List

section

variable {α β σ : Type}

/-- What is found by going through a list with a state is found at one of its places, in the state
that the places before it have left. -/
lemma mem_scan_iff {scan : σ → List α → List β} (found : σ → α → List β) {next : σ → α → σ}
    (hnil : ∀ s, scan s [] = [])
    (hcons : ∀ s a l, scan s (a :: l) = found s a ++ scan (next s a) l) {s : σ} {l : List α}
    {b : β} : b ∈ scan s l ↔
      ∃ before a after, l = before ++ a :: after ∧ b ∈ found (before.foldl next s) a := by
  induction l generalizing s with
  | nil => simp [hnil]
  | cons a l ih =>
    rw [hcons, mem_append, ih]
    constructor
    · rintro (h | ⟨before, a', after, rfl, h⟩)
      · exact ⟨[], a, l, rfl, h⟩
      · exact ⟨a :: before, a', after, rfl, h⟩
    · rintro ⟨before, a', after, heq, h⟩
      cases before with
      | nil =>
        cases heq
        exact Or.inl h
      | cons first before =>
        obtain ⟨rfl, rfl⟩ := cons.inj heq
        exact Or.inr ⟨before, a', after, rfl, h⟩

/-- What a series of steps has collected was there before or comes from one of them. -/
lemma mem_foldl_iff {next : List β → α → List β} {brings : α → β → Prop}
    (h : ∀ s a b, b ∈ next s a ↔ b ∈ s ∨ brings a b) {s : List β} {l : List α} {b : β} :
    b ∈ l.foldl next s ↔ b ∈ s ∨ ∃ a ∈ l, brings a b := by
  induction l generalizing s with
  | nil => simp
  | cons a l ih => rw [foldl_cons, ih, h, exists_mem_cons_iff, or_assoc]

end

/-- A conflict: a later declaration would silently win over an earlier one. -/
def Defect.isConflict : Defect → Bool
  | repeatedTarget _ | repeatedChild _ => true
  | _ => false

namespace Page

variable {p : Page} {strict : Bool} {severity : Severity} {finding : Finding} {defect : Defect}
  {key parent child : String} {slot : Slot} {slots : List Slot} {b : WrittenBinding}
  {bindings : List WrittenBinding} {children listed : List String}
  {groups : List (String × List String)}

/-- The severity of a conflict. -/
def conflictSeverity (strict : Bool) : Severity :=
  if strict then .error else .warning

/-- What is wrong with a page, where it is wrong, and how grave that is. -/
inductive Shows (p : Page) (strict : Bool) : Severity → Finding → Prop
  /-- A component has no type. -/
  | untyped {key : String} {c : Component} (hc : p.components.get? key = some c)
    (htype : c.typeName = "") : p.Shows strict .error ⟨.component key, .untyped⟩
  /-- A rendering list is neither the one with which the page opens nor that of a component. -/
  | strayRendering {key : String} {slots : List Slot} (hslots : p.rendering.get? key = some slots)
    (hkey : key ≠ defaultKey) (hunknown : key ∉ p.components.keys) :
    p.Shows strict .warning ⟨.rendering key, .strayRendering key⟩
  /-- A slot names no component. -/
  | unknownComponent {key : String} {slots : List Slot} {i : Nat} {slot : Slot}
    (hslots : p.rendering.get? key = some slots) (hslot : slots[i]? = some slot)
    (hunknown : slot.name ∉ p.components.keys) :
    p.Shows strict .error ⟨.slot key i, .unknownComponent slot.name⟩
  /-- A binding cannot be understood. -/
  | malformedBinding {key : String} {slots : List Slot} {i : Nat} {slot : Slot}
    {b : WrittenBinding} {fault : Fault} (hslots : p.rendering.get? key = some slots)
    (hslot : slots[i]? = some slot) (hb : b ∈ slot.bindings)
    (hread : Binding.ofWritten b = .error fault) :
    p.Shows strict .error ⟨.slot key i, .malformedBinding fault⟩
  /-- A binding reads neither the caller's parameters nor a component. -/
  | unknownSource {key : String} {slots : List Slot} {i : Nat} {slot : Slot} {b : WrittenBinding}
    {binding : Binding} {source : String} (hslots : p.rendering.get? key = some slots)
    (hslot : slots[i]? = some slot) (hb : b ∈ slot.bindings)
    (hread : Binding.ofWritten b = .ok binding) (hsource : binding.source = .component source)
    (hunknown : source ∉ p.components.keys) :
    p.Shows strict .error ⟨.slot key i, .unknownSource source⟩
  /-- A binding has the target of one before it. -/
  | repeatedTarget {key : String} {slots : List Slot} {i : Nat} {slot : Slot}
    {before after : List WrittenBinding} {b : WrittenBinding}
    (hslots : p.rendering.get? key = some slots) (hslot : slots[i]? = some slot)
    (hbindings : slot.bindings = before ++ b :: after)
    (hrepeated : b.target ∈ before.map WrittenBinding.target) :
    p.Shows strict (conflictSeverity strict) ⟨.slot key i, .repeatedTarget b.target⟩
  /-- A group belongs to no component. -/
  | unknownParent {parent : String} {children : List String}
    (hgroup : p.layout.parallel.get? parent = some children)
    (hunknown : parent ∉ p.components.keys) :
    p.Shows strict .warning ⟨.parallel parent, .unknownParent parent⟩
  /-- A group lists what is no component. -/
  | unknownChild {parent child : String} {children : List String}
    (hgroup : p.layout.parallel.get? parent = some children) (hchild : child ∈ children)
    (hunknown : child ∉ p.components.keys) :
    p.Shows strict .warning ⟨.parallel parent, .unknownChild child⟩
  /-- A group lists its own component. -/
  | selfParallel {parent : String} {children : List String}
    (hgroup : p.layout.parallel.get? parent = some children) (hself : parent ∈ children) :
    p.Shows strict .error ⟨.parallel parent, .selfParallel parent⟩
  /-- A group lists a child again, or one that an earlier group lists. -/
  | repeatedChild {parent child : String} {earlier later : List (String × List String)}
    {before after : List String}
    (hgroups : p.layout.parallel.entries = earlier ++ (parent, before ++ child :: after) :: later)
    (hchild : child ≠ parent)
    (hrepeated : child ∈ before ∨ ∃ group ∈ earlier, child ≠ group.1 ∧ child ∈ group.2) :
    p.Shows strict (conflictSeverity strict) ⟨.parallel parent, .repeatedChild child⟩

/-! ### Components -/

lemma mem_componentFindings : finding ∈ p.componentFindings ↔
    ∃ key c, p.components.get? key = some c ∧ c.typeName = "" ∧
      finding = ⟨.component key, .untyped⟩ := by
  simp only [componentFindings, mem_map, mem_filter, String.isEmpty_iff, Prod.exists,
    Dict.mem_entries_iff, and_assoc, @eq_comm _ finding]

/-! ### Rendering lists -/

lemma mem_bindingDefects : defect ∈ p.bindingDefects b ↔
    (∃ fault, Binding.ofWritten b = .error fault ∧ defect = .malformedBinding fault) ∨
      ∃ binding source, Binding.ofWritten b = .ok binding ∧ binding.source = .component source ∧
        source ∉ p.components.keys ∧ defect = .unknownSource source := by
  rw [bindingDefects]
  cases Binding.ofWritten b with
  | error fault => simp
  | ok binding =>
    cases hsource : binding.source with
    | params => simp [Binding.dependency?, hsource]
    | component source =>
      by_cases hknown : source ∈ p.components.keys
      · simp [Binding.dependency?, hsource, Dict.contains_iff, hknown]
      · simp [Binding.dependency?, hsource, Dict.contains_iff, hknown]

lemma mem_bindingsDefects : defect ∈ p.bindingsDefects [] bindings ↔
    ∃ before b after, bindings = before ++ b :: after ∧
      (defect ∈ p.bindingDefects b ∨
        b.target ∈ before.map WrittenBinding.target ∧ defect = .repeatedTarget b.target) := by
  have hfilled (before : List WrittenBinding) (target : String) :
      target ∈ before.foldl (fun filled b => b.target :: filled) [] ↔
        target ∈ before.map WrittenBinding.target := by
    have hnext (filled : List String) (b : WrittenBinding) (target : String) :
        target ∈ b.target :: filled ↔ target ∈ filled ∨ b.target = target := by
      rw [mem_cons, or_comm, eq_comm]
    rw [mem_foldl_iff hnext, mem_map]
    simp
  rw [mem_scan_iff (fun filled b => p.bindingDefects b ++
    if b.target ∈ filled then [.repeatedTarget b.target] else []) (fun _ => rfl) fun _ _ _ => rfl]
  simp only [mem_append, mem_ite_nil_right, mem_singleton, hfilled]

lemma mem_slotDefects : defect ∈ p.slotDefects slot ↔
    (slot.name ∉ p.components.keys ∧ defect = .unknownComponent slot.name) ∨
      ∃ before b after, slot.bindings = before ++ b :: after ∧
        (defect ∈ p.bindingDefects b ∨
          b.target ∈ before.map WrittenBinding.target ∧ defect = .repeatedTarget b.target) := by
  rw [slotDefects, mem_append, mem_bindingsDefects]
  simp [Dict.contains_iff]

lemma mem_renderingFindings : finding ∈ p.renderingFindings key slots ↔
    (key ≠ defaultKey ∧ key ∉ p.components.keys ∧
      finding = ⟨.rendering key, .strayRendering key⟩) ∨
    ∃ i slot defect, slots[i]? = some slot ∧ defect ∈ p.slotDefects slot ∧
      finding = ⟨.slot key i, defect⟩ := by
  rw [renderingFindings, mem_append]
  apply or_congr
  · simp [Dict.contains_iff, not_or, and_assoc]
  · simp only [mem_flatten, mem_mapIdx]
    constructor
    · rintro ⟨_, ⟨i, hi, rfl⟩, hfinding⟩
      obtain ⟨defect, hdefect, rfl⟩ := mem_map.mp hfinding
      exact ⟨i, slots[i], defect, getElem?_eq_getElem hi, hdefect, rfl⟩
    · rintro ⟨i, slot, defect, hslot, hdefect, rfl⟩
      obtain ⟨hi, rfl⟩ := List.getElem?_eq_some_iff.mp hslot
      exact ⟨_, ⟨i, hi, rfl⟩, mem_map_of_mem hdefect⟩

/-! ### Groups -/

lemma mem_listChildren : child ∈ listChildren parent listed children ↔
    child ∈ listed ∨ child ≠ parent ∧ child ∈ children := by
  have hnext (listed : List String) (c child : String) :
      child ∈ (if c = parent then listed else c :: listed) ↔
        child ∈ listed ∨ c ≠ parent ∧ child = c := by
    by_cases h : c = parent <;> simp [h, or_comm]
  rw [listChildren, mem_foldl_iff hnext]
  apply or_congr_right
  constructor
  · rintro ⟨c, hc, hne, rfl⟩
    exact ⟨hne, hc⟩
  · rintro ⟨hne, hchild⟩
    exact ⟨child, hchild, hne, rfl⟩

lemma mem_childDefects : defect ∈ p.childDefects listed parent child ↔
    (child ∉ p.components.keys ∧ defect = .unknownChild child) ∨
      (child = parent ∧ defect = .selfParallel child) ∨
      (child ≠ parent ∧ child ∈ listed ∧ defect = .repeatedChild child) := by
  rw [childDefects, mem_append]
  by_cases hself : child = parent
  · simp [hself, Dict.contains_iff]
  · simp [hself, Dict.contains_iff]

lemma mem_childrenDefects : defect ∈ p.childrenDefects parent listed children ↔
    ∃ before child after, children = before ++ child :: after ∧
      defect ∈ p.childDefects (listChildren parent listed before) parent child :=
  mem_scan_iff (p.childDefects · parent ·) (fun _ => rfl) fun _ _ _ => rfl

/-- The children that are listed before a group. -/
def listedBefore (earlier : List (String × List String)) : List String :=
  earlier.foldl (fun listed group => listChildren group.1 listed group.2) []

lemma mem_listedBefore {earlier : List (String × List String)} : child ∈ listedBefore earlier ↔
    ∃ group ∈ earlier, child ≠ group.1 ∧ child ∈ group.2 := by
  have hnext (listed : List String) (group : String × List String) (child : String) :
      child ∈ listChildren group.1 listed group.2 ↔
        child ∈ listed ∨ child ≠ group.1 ∧ child ∈ group.2 := mem_listChildren
  rw [listedBefore, mem_foldl_iff hnext]
  simp

lemma mem_parallelFindings : finding ∈ p.parallelFindings [] groups ↔
    ∃ earlier parent children later, groups = earlier ++ (parent, children) :: later ∧ ∃ defect,
      ((parent ∉ p.components.keys ∧ defect = .unknownParent parent) ∨
        defect ∈ p.childrenDefects parent (listedBefore earlier) children) ∧
      finding = ⟨.parallel parent, defect⟩ := by
  have hunknown (parent : String) (defect : Defect) : defect ∈
      (if p.components.contains parent then [] else [Defect.unknownParent parent]) ↔
        parent ∉ p.components.keys ∧ defect = .unknownParent parent := by
    simp [Dict.contains_iff]
  rw [mem_scan_iff (fun listed group =>
    ((if p.components.contains group.1 then [] else [Defect.unknownParent group.1]) ++
      p.childrenDefects group.1 listed group.2).map (⟨.parallel group.1, ·⟩))
    (fun _ => rfl) fun _ _ _ => rfl]
  simp only [listedBefore, mem_map, mem_append, hunknown, Prod.exists, @eq_comm _ finding]

/-! ### The whole page -/

lemma shows_of_mem_findings (h : finding ∈ p.findings) :
    p.Shows strict (finding.defect.severity strict) finding := by
  rw [findings, mem_append, mem_append, mem_flatMap] at h
  obtain (h | ⟨⟨key, slots⟩, hentry, h⟩) | h := h
  · obtain ⟨key, c, hc, htype, rfl⟩ := mem_componentFindings.mp h
    exact .untyped hc htype
  · have hslots := Dict.mem_entries_iff.mp hentry
    obtain ⟨hkey, hunknown, rfl⟩ | ⟨i, slot, defect, hslot, hdefect, rfl⟩ :=
      mem_renderingFindings.mp h
    · exact .strayRendering hslots hkey hunknown
    · obtain ⟨hunknown, rfl⟩ | ⟨before, b, after, hbindings, hdefect | ⟨hrepeated, rfl⟩⟩ :=
        mem_slotDefects.mp hdefect
      · exact .unknownComponent hslots hslot hunknown
      · have hb : b ∈ slot.bindings := by simp [hbindings]
        obtain ⟨fault, hread, rfl⟩ | ⟨binding, source, hread, hsource, hunknown, rfl⟩ :=
          mem_bindingDefects.mp hdefect
        · exact .malformedBinding hslots hslot hb hread
        · exact .unknownSource hslots hslot hb hread hsource hunknown
      · exact .repeatedTarget hslots hslot hbindings hrepeated
  · obtain ⟨earlier, parent, children, later, hgroups, defect, hdefect, rfl⟩ :=
      mem_parallelFindings.mp h
    have hgroup : p.layout.parallel.get? parent = some children :=
      Dict.mem_entries_iff.mp (by simp [hgroups])
    obtain ⟨hunknown, rfl⟩ | hdefect := hdefect
    · exact .unknownParent hgroup hunknown
    · obtain ⟨before, child, after, rfl, hchild⟩ := mem_childrenDefects.mp hdefect
      obtain ⟨hunknown, rfl⟩ | ⟨rfl, rfl⟩ | ⟨hne, hlisted, rfl⟩ := mem_childDefects.mp hchild
      · exact .unknownChild hgroup (by simp) hunknown
      · exact .selfParallel hgroup (by simp)
      · rw [mem_listChildren, mem_listedBefore] at hlisted
        exact .repeatedChild hgroups hne (hlisted.symm.imp_left And.right)

lemma mem_findings_of_slot {i : Nat} (hslots : p.rendering.get? key = some slots)
    (hslot : slots[i]? = some slot) (h : defect ∈ p.slotDefects slot) :
    ⟨.slot key i, defect⟩ ∈ p.findings := by
  apply mem_append_left
  apply mem_append_right
  exact mem_flatMap.mpr ⟨(key, slots), Dict.mem_entries_iff.mpr hslots,
    mem_renderingFindings.mpr (Or.inr ⟨i, slot, defect, hslot, h, rfl⟩)⟩

lemma mem_findings_of_binding {i : Nat} (hslots : p.rendering.get? key = some slots)
    (hslot : slots[i]? = some slot) (hb : b ∈ slot.bindings) (h : defect ∈ p.bindingDefects b) :
    ⟨.slot key i, defect⟩ ∈ p.findings := by
  obtain ⟨before, after, hbindings⟩ := append_of_mem hb
  exact mem_findings_of_slot hslots hslot
    (mem_slotDefects.mpr (Or.inr ⟨before, b, after, hbindings, Or.inl h⟩))

lemma mem_findings_of_child {earlier later : List (String × List String)}
    {before after : List String}
    (hgroups : p.layout.parallel.entries = earlier ++ (parent, before ++ child :: after) :: later)
    (h : defect ∈ p.childDefects (listChildren parent (listedBefore earlier) before) parent child) :
    ⟨.parallel parent, defect⟩ ∈ p.findings := by
  apply mem_append_right
  exact mem_parallelFindings.mpr ⟨earlier, parent, _, later, hgroups, defect,
    Or.inr (mem_childrenDefects.mpr ⟨before, child, after, rfl, h⟩), rfl⟩

lemma mem_findings_of_shows (h : p.Shows strict severity finding) : finding ∈ p.findings := by
  cases h with
  | untyped hc htype =>
    exact mem_append_left _ (mem_append_left _ (mem_componentFindings.mpr ⟨_, _, hc, htype, rfl⟩))
  | @strayRendering key slots hslots hkey hunknown =>
    apply mem_append_left
    apply mem_append_right
    exact mem_flatMap.mpr ⟨(key, slots), Dict.mem_entries_iff.mpr hslots,
      mem_renderingFindings.mpr (Or.inl ⟨hkey, hunknown, rfl⟩)⟩
  | unknownComponent hslots hslot hunknown =>
    exact mem_findings_of_slot hslots hslot (mem_slotDefects.mpr (Or.inl ⟨hunknown, rfl⟩))
  | malformedBinding hslots hslot hb hread =>
    exact mem_findings_of_binding hslots hslot hb (mem_bindingDefects.mpr (Or.inl ⟨_, hread, rfl⟩))
  | unknownSource hslots hslot hb hread hsource hunknown =>
    exact mem_findings_of_binding hslots hslot hb
      (mem_bindingDefects.mpr (Or.inr ⟨_, _, hread, hsource, hunknown, rfl⟩))
  | repeatedTarget hslots hslot hbindings hrepeated =>
    exact mem_findings_of_slot hslots hslot
      (mem_slotDefects.mpr (Or.inr ⟨_, _, _, hbindings, Or.inr ⟨hrepeated, rfl⟩⟩))
  | unknownParent hgroup hunknown =>
    obtain ⟨earlier, later, hgroups⟩ := append_of_mem (Dict.mem_entries_iff.mpr hgroup)
    exact mem_append_right _ (mem_parallelFindings.mpr
      ⟨earlier, _, _, later, hgroups, _, Or.inl ⟨hunknown, rfl⟩, rfl⟩)
  | unknownChild hgroup hchild hunknown =>
    obtain ⟨earlier, later, hgroups⟩ := append_of_mem (Dict.mem_entries_iff.mpr hgroup)
    obtain ⟨before, after, rfl⟩ := append_of_mem hchild
    exact mem_findings_of_child hgroups (mem_childDefects.mpr (Or.inl ⟨hunknown, rfl⟩))
  | selfParallel hgroup hself =>
    obtain ⟨earlier, later, hgroups⟩ := append_of_mem (Dict.mem_entries_iff.mpr hgroup)
    obtain ⟨before, after, rfl⟩ := append_of_mem hself
    exact mem_findings_of_child hgroups (mem_childDefects.mpr (Or.inr (Or.inl ⟨rfl, rfl⟩)))
  | repeatedChild hgroups hne hrepeated =>
    have hlisted := mem_listChildren.mpr (hrepeated.symm.imp mem_listedBefore.mpr fun h => ⟨hne, h⟩)
    exact mem_findings_of_child hgroups (mem_childDefects.mpr (Or.inr (Or.inr ⟨hne, hlisted, rfl⟩)))

lemma Shows.severity_eq (h : p.Shows strict severity finding) :
    severity = finding.defect.severity strict := by
  cases h <;> rfl

/-- What is wrong with a page is found, and nothing else is. -/
theorem shows_iff : p.Shows strict severity finding ↔
    finding ∈ p.findings ∧ severity = finding.defect.severity strict := by
  constructor
  · intro h
    exact ⟨mem_findings_of_shows h, h.severity_eq⟩
  · rintro ⟨h, rfl⟩
    exact shows_of_mem_findings h

end Page

end PageRender
