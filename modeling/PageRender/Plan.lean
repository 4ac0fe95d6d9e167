import PageRender.Binding.Basic
import PageRender.Request

/-!
# Plans

The components that a pass renders, in order, each with the event that it gets. A page that opens is
rendered in full; an event on a page that was sent before renders its component and those
downstream.
-/

namespace PageRender

/-- How much of a page a pass renders. -/
inductive Mode
  /-- All that the page opens with. -/
  | full
  /-- The component of an event, and what is downstream of it. -/
  | affected
deriving DecidableEq

/-- The name of a mode. -/
def Mode.name : Mode → String
  | full => "full"
  | affected => "partial"

/-- A planned render of one component. -/
structure Step where
  slot : Slot
  bindings : List Binding
  event : Event

namespace Step

/-- The component that renders. -/
def name (s : Step) : String :=
  s.slot.name

/-- Plan a slot, if its bindings can be understood. -/
def ofSlot (slot : Slot) (event : Event) : Except Fault Step :=
  (Binding.ofSlot slot).map fun bindings => ⟨slot, bindings, event⟩

end Step

/-- What a pass renders, in order. -/
structure Plan where
  mode : Mode
  steps : List Step

namespace Plan

/-- The planned components. -/
def names (p : Plan) : List String :=
  p.steps.map Step.name

/-- Keep the first slot of every component that is not among those seen. -/
def firstSlots (seen : List String) : List Slot → List Slot
  | [] => []
  | slot :: rest =>
    if slot.name ∈ seen then firstSlots seen rest
    else slot :: firstSlots (slot.name :: seen) rest

/-- What the page opens with: its own list, else that of the default page, else every component of
the default page. -/
def openingSlots (default live : Page) : List Slot :=
  match live.defaultRendering? <|> default.defaultRendering? with
  | some slots => slots
  | none => default.components.keys.map fun name => { name }

/-- What renders after a component: by the page's own list, else by that of the default page. -/
def downstreamSlots (default live : Page) (component : String) : List Slot :=
  ((live.downstream? component) <|> (default.downstream? component)).getD []

/-- The plan of a page that opens. -/
def full (default live : Page) : Except Fault Plan := do
  let slots := firstSlots [] (openingSlots default live)
  let steps ← slots.mapM fun slot => Step.ofSlot slot (.opening slot.name)
  pure ⟨.full, steps⟩

/-- The plan of an event on a component: the component itself without bindings, then what is
downstream. -/
def after (event : Event) (default live : Page) : Except Fault Plan := do
  let slots := firstSlots [event.component] (downstreamSlots default live event.component)
  let steps ← slots.mapM fun slot => Step.ofSlot slot (.refreshing slot.name)
  pure ⟨.affected, ⟨{ name := event.component }, [], event⟩ :: steps⟩

/-- Keep the step of one component only. -/
def only (p : Plan) (component : String) : Except Fault Plan :=
  match p.steps.find? fun step => step.name = component with
  | some step => .ok { p with steps := [step] }
  | none => .error (.notPlanned component)

/-- The plan of a request on a live page, before it is narrowed down. The request's snapshot and its
target decide between the two modes. -/
def whole (default : Page) (request : Request) (live : Page) : Except Fault Plan :=
  match request.snapshot, request.target? with
  | some _, some event => after event default live
  | _, _ => full default live

/-- The plan of a request on a live page. -/
def ofRequest (default : Page) (request : Request) (live : Page) : Except Fault Plan := do
  let plan ← whole default request live
  match request.only with
  | some component => plan.only component
  | none => pure plan

end Plan

end PageRender
