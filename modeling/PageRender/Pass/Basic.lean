import PageRender.Binding.Resolve
import PageRender.Catalog
import PageRender.Pass.Tally
import PageRender.Plan

/-!
# Passes

The state of a pass and what one step does to it. When a step starts, its bindings are resolved
against the components that have rendered until then. When it ends, a copy of its component is
rendered, and put in place only if the whole render was successful. What the component's kind wrote
on the blackboard stays in any case.
-/

namespace PageRender

/-- What all steps of a pass share and none changes. -/
structure Setting where
  scenario : String
  catalog : Catalog
  params : Fields := .empty
  locale : String := "en"
  translator : Translator := .silent

/-- The state of a pass. -/
structure Pass where
  components : Dict Component
  blackboard : Blackboard
  /-- The components that have rendered, in the order in which they first did. -/
  rendered : List String := []
  tally : Tally := {}
  /-- The reports of the renders, in order. -/
  reports : List Report := []

namespace Pass

/-- What bindings may read in a pass. -/
def sources (p : Pass) (s : Setting) : Sources where
  params := s.params
  components := p.components
  rendered := p.rendered

/-- What a step needs to render: a copy of its component with the bindings filled in, and the
renderer of its type. -/
structure Job where
  component : Component
  renderer : Renderer

/-- A copy of the component of a step, with its bindings filled in. -/
def copyOf (s : Setting) (p : Pass) (step : Step) : Except Fault Component := do
  let resolved ← (p.sources s).resolve step.name step.bindings
  match p.components.get? step.name with
  | some c => .ok (c.fill resolved)
  | none => .error (.noComponent s.scenario step.name)

/-- What a step needs, found in the pass as it stands when the step starts. -/
def jobOf (s : Setting) (p : Pass) (step : Step) : Except Fault Job := do
  let component ← copyOf s p step
  let renderer ← s.catalog.renderer s.scenario component.typeName
  pure { component, renderer }

/-- Count a step that has failed. -/
def countFailure (p : Pass) : Pass :=
  { p with tally := p.tally.countFailure }

/-- Start a step. -/
def startStep (s : Setting) (step : Step) (p : Pass) : Except Fault Job × Pass :=
  match jobOf s p step with
  | .ok job => (.ok job, p)
  | .error f => (.error f, p.countFailure)

/-- What a render of a step is given. -/
def input (s : Setting) (step : Step) : Input where
  event := step.event
  params := s.params
  locale := s.locale
  translator := s.translator

/-- A halt as a fault of the pass. A panic is one of the component. -/
def haltFault (component : String) : Halt → Fault
  | .fault f => f
  | .panic p => .handlerPanicked component (p.text.getD "unknown panic")

/-- Put a render that was successful in place. -/
def commit (p : Pass) (step : Step) (c : Component) (report : Report) : Pass :=
  { p with
    components := p.components.insert step.name c
    rendered := if step.name ∈ p.rendered then p.rendered else p.rendered ++ [step.name]
    tally := (p.tally.countBindings step.bindings.length).countRender report.visible
    reports := p.reports ++ [report] }

/-- Render the copy of a step that has started, and end the step. -/
def finishStep (s : Setting) (step : Step) (job : Job) (p : Pass) : Except Fault Unit × Pass :=
  let (result, bench) :=
    (job.renderer.render (input s step)).run.run ⟨job.component, p.blackboard⟩
  let p := { p with blackboard := bench.blackboard }
  match result with
  | .ok report => (.ok (), p.commit step bench.subject report)
  | .error halt => (.error (haltFault job.component.name halt), p.countFailure)

/-- Run a step from its start to its end. -/
def runStep (s : Setting) (step : Step) (p : Pass) : Except Fault Unit × Pass :=
  match p.startStep s step with
  | (.ok job, p) => p.finishStep s step job
  | (.error f, p) => (.error f, p)

end Pass

end PageRender
