import PageRender.Kind.Basic
import PageRender.Lifecycle.Extra
import PageRender.Lifecycle.Stage

/-!
# The lifecycle of a render

How a kind renders one component. The component's model is decoded; if it shows, the operation runs
with what belongs before and after it; the model is encoded; and at the end, also of a render that
failed, the kind finishes up. Only a panic leaves no time for that.

`Kind.renderer` forgets the model, so that kinds of all models can be kept in one catalog.
-/

namespace PageRender

/-- What a render is given beside the component. -/
structure Input where
  event : Event := {}
  params : Fields := .empty
  locale : String := ""
  translator : Translator := .silent

/-- The context of an operation on a component. -/
def Input.context (input : Input) (component : String) : Context where
  component := component
  operation := input.event.operation
  payload := input.event.payload
  params := input.params
  locale := input.locale
  translator := input.translator

/-- What a render knows as it goes along. -/
structure Body where
  component : Component
  blackboard : Blackboard
  trace : Trace
  /-- Whether the component shows, once that is known. -/
  visible : Option Bool

/-- A part of a render. -/
abbrev Attempt (α : Type) := ExceptT Halt (StateM Body) α

namespace Attempt

/-- A fault of decoding or encoding is reported as one of the codec, which keeps its own report. -/
def codecHalt (component : String) : Halt → Halt
  | .fault (.codec c reason) => .fault (.codec c reason)
  | .fault f => .fault (.codec component f.message)
  | .panic p => .panic p

/-- Go on to a stage. -/
def advance (component : String) (next : Stage) : Attempt Unit := do
  let body ← get
  match body.trace.advance component next with
  | .ok trace => set { body with trace }
  | .error f => throw (.fault f)

/-- Decode the model. -/
def decode {M : Type} (kind : Kind M) (name : String) (params : Fields) : Attempt M := do
  let body ← get
  match kind.decode kind.fresh body.component params with
  | .ok model => pure model
  | .error halt => throw (codecHalt name halt)

/-- Find out whether the component shows, and remember it. -/
def judge {M : Type} (kind : Kind M) (context : Context) (model : M) : Attempt Bool := do
  let body ← get
  let (result, blackboard) := (kind.visible context model).run.run body.blackboard
  set { body with blackboard }
  match result with
  | .ok visible =>
    modify fun body => { body with visible := some visible }
    pure visible
  | .error p => throw (.panic p)

/-- Let work be done on the model. -/
def onModel {M : Type} (work : Work M Unit) (model : M) : Attempt M := do
  let body ← get
  let (result, bench) := work.run.run ⟨model, body.blackboard⟩
  set { body with blackboard := bench.blackboard }
  match result with
  | .ok _ => pure bench.subject
  | .error halt => throw halt

/-- Encode the model. -/
def encode {M : Type} (kind : Kind M) (name : String) (model : M) : Attempt Unit := do
  let body ← get
  let (result, component) := (kind.encode model).run.run body.component
  set { body with component }
  match result with
  | .ok _ => pure ()
  | .error halt => throw (codecHalt name halt)

/-- Flatten the extra entries of data and props, if the kind or the component asks for it. -/
def flatten {M : Type} (kind : Kind M) : Attempt Unit :=
  modify fun body =>
    if kind.flattens || (body.component.flags.getD {}).flatExtra then
      { body with
        component := (body.component.modifyData fun fields => fields.flattenExtra.1).modifyProps
          fun fields => fields.flattenExtra.1 }
    else body

end Attempt

namespace Kind

variable {M : Type}

/-- Run the operation of an event, with what belongs before and after it. -/
def dispatch (kind : Kind M) (context : Context) : Work M Unit := do
  kind.before context
  match kind.table.get? context.operation with
  | some handler => handler context
  | none => Work.refuse (.noOperation context.component context.operation)
  kind.after context

/-- Run the operation on a model if the component shows, and pass over it otherwise. -/
def operate (kind : Kind M) (context : Context) (model : M) : Attempt M := do
  if ← Attempt.judge kind context model then
    let model ← Attempt.onModel (kind.dispatch context) model
    Attempt.advance context.component .operationHandled
    pure model
  else
    Attempt.advance context.component .skipped
    pure model

/-- The part of a render that may fail before the kind finishes up. -/
def attempt (kind : Kind M) (name : String) (input : Input) : Attempt Unit := do
  let model ← Attempt.decode kind name input.params
  Attempt.advance name .decoded
  let model ← kind.operate (input.context name) model
  Attempt.encode kind name model
  Attempt.flatten kind
  Attempt.advance name .encoded

/-- Finish up: let the kind do what it does at the end, then record whether the component shows, if
that is known. -/
def conclude (kind : Kind M) (name : String) (input : Input) : Attempt Unit := do
  let body ← get
  let (result, bench) :=
    (kind.finish (input.context name)).run.run ⟨body.component, body.blackboard⟩
  let body := { body with component := bench.subject, blackboard := bench.blackboard }
  match result with
  | .error (.panic p) =>
    set body
    throw (.panic p)
  | _ =>
    set { body with
      component := match body.visible with
        | some visible => body.component.setVisible visible
        | none => body.component }
    match result with
    | .error halt => throw halt
    | .ok _ => pure ()

/-- The whole render of a component. A fault of the first part is reported before one of the
second. -/
def lifecycle (kind : Kind M) (name : String) (input : Input) : Attempt Unit := fun body =>
  match (kind.attempt name input).run.run body with
  | (.error (.panic p), body) => (.error (.panic p), body)
  | (.error (.fault f), body) =>
    match (kind.conclude name input).run.run body with
    | (.error (.panic p), body) => (.error (.panic p), body)
    | (_, body) => (.error (.fault f), body)
  | (.ok _, body) =>
    (do
      kind.conclude name input
      Attempt.advance name .finalized : Attempt Unit).run.run body

end Kind

/-- What a successful render of a component reports. -/
structure Report where
  component : String
  typeName : String
  operation : String
  visible : Bool
  trace : Trace
deriving DecidableEq

/-- The document of a report. -/
def Report.encode (r : Report) : Json :=
  .object [("component", .string r.component), ("type_name", .string r.typeName),
    ("operation", .string r.operation), ("visible", .bool r.visible), ("trace", r.trace.encode)]

/-- What a render finds out: whether the component shows, and the stages gone through. -/
structure Outcome where
  visible : Bool
  trace : Trace
deriving DecidableEq

/-- A way to render the components of one type: a kind whose model is left out of sight. It stands
for such kinds only, and so it does not say of itself which component, type and operation are
reported, but only what a lifecycle finds out. -/
structure Renderer where
  typeName : String
  /-- Render a component, which keeps what was changed before a halt. -/
  run : Input → Work Component Outcome

namespace Renderer

/-- Render a component and report it. -/
def render (r : Renderer) (input : Input) : Work Component Report := do
  let component := (← get).subject.name
  let outcome ← r.run input
  pure {
    component
    typeName := r.typeName
    operation := input.event.operation
    visible := outcome.visible
    trace := outcome.trace }

end Renderer

/-- The renderer of a kind: its lifecycle, on a component whose containers are all made present. -/
def Kind.renderer {M : Type} (kind : Kind M) : Renderer where
  typeName := kind.name
  run input := fun bench =>
    let body : Body := ⟨bench.subject.normalize, bench.blackboard, {}, none⟩
    let (result, body) := (kind.lifecycle bench.subject.name input).run.run body
    (result.map fun _ => ⟨body.visible.getD false, body.trace⟩, ⟨body.component, body.blackboard⟩)

end PageRender
