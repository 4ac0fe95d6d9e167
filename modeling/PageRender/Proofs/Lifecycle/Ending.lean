import PageRender.Kind.Plain
import PageRender.Proofs.Lifecycle.Blackboard

/-!
# How a render ends

If none of its hooks panics, a kind finishes up once at the end of every render, on whatever the
hooks before have left, and whether or not one of them has failed. A fault of finishing up is
reported only if there is no other.
-/

namespace PageRender

/-- Work that does not panic. -/
def Steady {ω α : Type} (work : ExceptT Halt (StateM ω) α) : Prop :=
  ∀ w p, (work.run.run w).1 ≠ .error (.panic p)

lemma Steady.ne_panic {ω α : Type} {work : ExceptT Halt (StateM ω) α} (h : Steady work) {w w' : ω}
    {result : Except Halt α} (hrun : work.run.run w = (result, w')) (p : Panic) :
    result ≠ .error (.panic p) := by
  have hnot := h w p
  rwa [hrun] at hnot

/-- No hook of a kind panics, apart perhaps from the one that finishes up. -/
structure Kind.Steady {M : Type} (kind : Kind M) : Prop where
  decode : ∀ c params p, kind.decode kind.fresh c params ≠ .error (.panic p)
  visible : ∀ context model board p, ((kind.visible context model).run.run board).1 ≠ .error p
  operations : ∀ key handler, kind.operations.get? key = some handler →
    ∀ context, PageRender.Steady (handler context)
  onOpen : ∀ context, PageRender.Steady (kind.onOpen context)
  onRefresh : ∀ context, PageRender.Steady (kind.onRefresh context)
  before : ∀ context, PageRender.Steady (kind.before context)
  after : ∀ context, PageRender.Steady (kind.after context)
  encode : ∀ model, PageRender.Steady (kind.encode model)

lemma Halt.Recoded.ne_panic {name : String} {halt halt' : Halt} (h : halt.Recoded name halt')
    (hhalt : ∀ p, halt ≠ .panic p) (p : Panic) : halt' ≠ .panic p := by
  cases h with
  | codec => simp
  | fault => simp
  | panic p' => exact absurd rfl (hhalt p')

namespace Kind

variable {M : Type} {kind : Kind M} {name : String} {input : Input} {context : Context}
  {visible : Bool} {c : Component} {board : Blackboard} {hooks : List Hook} {shown : Option Bool}
  {bench bench' : Bench M} {result : Except Halt Unit} {left : Bench Component}

lemma Steady.table (h : kind.Steady) {key : String} {handler : Handler M}
    (hkey : kind.table.get? key = some handler) (context : Context) :
    PageRender.Steady (handler context) := by
  refine of_table (P := fun handler => ∀ context, PageRender.Steady (handler context)) ?_
    h.onOpen h.onRefresh hkey context
  exact h.operations

lemma Operated.ne_panic (hoperated : kind.Operated context bench visible hooks result bench')
    (h : kind.Steady) : ∀ p, result ≠ .error (.panic p) := by
  cases hoperated with
  | hidden => simp
  | before hbefore => exact (h.before context).ne_panic hbefore
  | unknown => simp
  | operation _ hhandler hoperation => exact (h.table hhandler context).ne_panic hoperation
  | after _ _ _ hafter => exact (h.after context).ne_panic hafter

namespace Attempted

lemma ne_panic (hattempted : kind.Attempted name input c board hooks shown result left)
    (h : kind.Steady) : ∀ p, result ≠ .error (.panic p) := by
  intro p hp
  subst hp
  cases hattempted with
  | undecoded hdecode hrecoded =>
    refine hrecoded.ne_panic (fun p hp => ?_) p rfl
    exact h.decode c input.params p (hp ▸ hdecode)
  | @unjudged model _ board' _ hvisible =>
    exact h.visible (input.context name) model board p (congrArg Prod.fst hvisible)
  | unhandled _ _ hoperated => exact hoperated.ne_panic h p rfl
  | @unencoded _ _ _ _ bench _ _ _ _ _ _ hencode hrecoded =>
    refine hrecoded.ne_panic (fun p hp => ?_) p rfl
    exact (h.encode bench.subject).ne_panic hencode p (congrArg Except.error hp)

/-- Whether a component shows is known as soon as the kind has said so. -/
lemma eq_some_iff (hattempted : kind.Attempted name input c board hooks shown result left) :
    shown = some visible ↔ ∃ model board',
      kind.decode kind.fresh c input.params = .ok model ∧
      (kind.visible (input.context name) model).run.run board = (.ok visible, board') := by
  have hdecoded {model : M} {shown' : Bool} {board₁ : Blackboard}
      (hdecode : kind.decode kind.fresh c input.params = .ok model)
      (hvisible : (kind.visible (input.context name) model).run.run board = (.ok shown', board₁)) :
      some shown' = some visible ↔ ∃ model board',
        kind.decode kind.fresh c input.params = .ok model ∧
        (kind.visible (input.context name) model).run.run board = (.ok visible, board') := by
    constructor
    · rintro ⟨⟩
      exact ⟨model, board₁, hdecode, hvisible⟩
    · rintro ⟨model', board', hdecode', hvisible'⟩
      cases hdecode.symm.trans hdecode'
      cases hvisible.symm.trans hvisible'
      rfl
  cases hattempted with
  | undecoded hdecode => simp [hdecode]
  | unjudged hdecode hvisible =>
    refine iff_of_false (Option.some_ne_none visible).symm ?_
    rintro ⟨model', board', hdecode', hvisible'⟩
    cases hdecode.symm.trans hdecode'
    cases hvisible.symm.trans hvisible'
  | unhandled hdecode hvisible => exact hdecoded hdecode hvisible
  | unencoded hdecode hvisible => exact hdecoded hdecode hvisible
  | complete hdecode hvisible => exact hdecoded hdecode hvisible

/-- If no hook panics, only a model that cannot be decoded leaves open whether its component
shows. -/
lemma eq_none_iff (hattempted : kind.Attempted name input c board hooks shown result left)
    (h : kind.Steady) :
    shown = none ↔ ∃ f, kind.decode kind.fresh c input.params = .error (.fault f) := by
  cases hattempted with
  | @undecoded halt _ hdecode =>
    rcases halt with f | p
    · exact iff_of_true rfl ⟨f, hdecode⟩
    · exact absurd hdecode (h.decode c input.params p)
  | @unjudged model p _ _ hvisible =>
    exact absurd (congrArg Prod.fst hvisible) (h.visible (input.context name) model board p)
  | unhandled hdecode => simp [hdecode]
  | unencoded hdecode => simp [hdecode]
  | complete hdecode => simp [hdecode]

end Attempted

/-! ### What finishing up has no part in -/

section

variable {finish : Context → Work Component Unit}

lemma Operated.withFinish (h : kind.Operated context bench visible hooks result bench') :
    { kind with finish }.Operated context bench visible hooks result bench' := by
  cases h with
  | hidden => exact .hidden
  | before hbefore => exact .before hbefore
  | unknown hbefore hnone => exact .unknown hbefore hnone
  | operation hbefore hhandler hoperation => exact .operation hbefore hhandler hoperation
  | after hbefore hhandler hoperation hafter => exact .after hbefore hhandler hoperation hafter

/-- The first part of a render is the same whatever the kind does at the end. -/
lemma Attempted.withFinish (h : kind.Attempted name input c board hooks shown result left) :
    { kind with finish }.Attempted name input c board hooks shown result left :=
  h.exchange fun _ _ => Operated.withFinish

end

/-- If no hook panics, a render goes through the hooks in their order, up to the first that fails,
and whatever the kind does at the end is done once, after that, on what they have left. The fault is
that of the hook that has failed, or else that of finishing up. In decoding and encoding a fault that
is none of the codec is turned into one, with its text; any other fault is reported as it is. Then it
is written down whether the component shows, unless the model could not be decoded. -/
theorem finish_ends_render (h : kind.Steady) (input : Input) (c : Component) (board : Blackboard) :
    ∃ hooks visible result left,
      kind.Attempted c.name input c.normalize board hooks visible result left ∧
      hooks.Sublist [.decode, .visible, .before, .operation, .after, .encode] ∧
      (∀ p, result ≠ .error (.panic p)) ∧
      (∀ shown, visible = some shown ↔ ∃ model board',
        kind.decode kind.fresh c.normalize input.params = .ok model ∧
        (kind.visible (input.context c.name) model).run.run board = (.ok shown, board')) ∧
      (visible = none ↔
        ∃ f, kind.decode kind.fresh c.normalize input.params = .error (.fault f)) ∧
      ∀ finish : Context → Work Component Unit, (∀ context, PageRender.Steady (finish context)) →
        ∃ ended bench report, (finish (input.context c.name)).run.run left = (ended, bench) ∧
          report = (result.bind fun _ => ended.map fun _ =>
            kind.reportOf c.name input (visible.getD false)) ∧
          { kind with finish }.Rendered input c board (hooks ++ [Hook.finish]) report
            ⟨bench.subject.record visible, bench.blackboard⟩ ∧
          ({ kind with finish }.renderer.render input).run.run ⟨c, board⟩ =
            (report, ⟨bench.subject.record visible, bench.blackboard⟩) := by
  obtain ⟨hooks, visible, result, left, hattempted⟩ :=
    kind.exists_attempted c.name input c.normalize board
  refine ⟨hooks, visible, result, left, hattempted, hattempted.sublist, hattempted.ne_panic h,
    fun shown => hattempted.eq_some_iff, hattempted.eq_none_iff h, ?_⟩
  intro finish hsteady
  rcases hfinish : (finish (input.context c.name)).run.run left with ⟨ended, bench⟩
  have hrendered : { kind with finish }.Rendered input c board (hooks ++ [Hook.finish])
      (result.bind fun _ => ended.map fun _ => kind.reportOf c.name input (visible.getD false))
      ⟨bench.subject.record visible, bench.blackboard⟩ :=
    .finished hattempted.withFinish (hattempted.ne_panic h) hfinish
      ((hsteady (input.context c.name)).ne_panic hfinish)
  exact ⟨ended, bench, _, rfl, rfl, hrendered, hrendered.run⟩

/-- The kind of components whose operation fails when their page opens, and that leave a mark on the
blackboard at the end and fail again. -/
def faltering : Kind Fields :=
  { Kind.stateOnly "faltering" with
    onOpen := fun _ => Work.refuse (.internal "not opened")
    finish := fun _ => do
      Work.post (·.set "mark" (.ofString "red"))
      Work.refuse (.internal "not finished") }

lemma faltering_steady : Kind.faltering.Steady where
  decode := by
    intro c params p hp
    cases hp
  visible := by
    intro context model board p hp
    cases hp
  operations := by
    intro key handler hkey
    cases hkey
  onOpen := by
    intro context w p hp
    cases hp
  onRefresh := by
    intro context w p hp
    cases hp
  before := by
    intro context w p hp
    cases hp
  after := by
    intro context w p hp
    cases hp
  encode := by
    intro model w p hp
    cases hp

/-- The mark is on the blackboard, and it is the failure of the operation that is reported. -/
theorem finish_ends_render_faltering :
    let c := Component.ofType "list" "faltering"
    let input : Input := { event := .opening "list" }
    Kind.faltering.Steady ∧ ∃ hooks left bench,
      Kind.faltering.Attempted "list" input c.normalize .empty hooks (some true)
        (.error (.fault (.internal "not opened"))) left ∧
      (Kind.faltering.renderer.render input).run.run ⟨c, .empty⟩ =
        (.error (.fault (.internal "not opened")), bench) ∧
      (bench.blackboard.get? "mark").isSome = true := by
  intro c input
  refine ⟨faltering_steady, ?_⟩
  obtain ⟨hooks, visible, result, left, hattempted, -, -, hvisible, -, hfinish⟩ :=
    finish_ends_render faltering_steady input c .empty
  obtain ⟨ended, bench, report, hended, hreport, -, hrender⟩ := hfinish Kind.faltering.finish (by
    intro context w p hp
    cases hp)
  obtain rfl : visible = some true := (hvisible true).mpr ⟨_, _, rfl, rfl⟩
  obtain ⟨trace, hrun⟩ := hattempted.run
  obtain rfl : Except.error (.fault (.internal "not opened")) = result := congrArg Prod.fst hrun
  cases hreport
  refine ⟨hooks, left, _, hattempted, hrender, ?_⟩
  cases hended
  simp [Blackboard.get?, Blackboard.set, Dict.get?_insert]

end Kind

end PageRender
