import PageRender.Pass.Basic
import PageRender.Pass.Dispatch
import PageRender.Service.Settings

/-!
# Rendering services

A service answers requests from a catalog. It can say what a pass would render, and it can run the
pass. Both begin with the same preparations: the live page is found, the plan is made, and every
planned component is checked for a definition and a renderer.

A business fault on the blackboard at the end of a pass is preferred over every other outcome. One
that an earlier pass has left there is taken away first.
-/

namespace PageRender

/-- A catalog with the settings and the texts for its passes. -/
structure Service where
  catalog : Catalog
  settings : Settings := {}
  translator : Translator := .silent

/-- A pass that is ready to run. -/
structure Prepared where
  live : Page
  plan : Plan
  parallel : Dict (List String)

/-- What a pass would render. -/
structure Preview where
  scenario : String
  mode : Mode
  /-- The planned components and their operations. -/
  items : List (String × String)
  edges : List Edge
deriving DecidableEq

namespace Preview

/-- The document of a preview. -/
def encode (p : Preview) : Json :=
  .object [("scenario", .string p.scenario), ("mode", .string p.mode.name),
    ("items", .array (p.items.map fun (name, operation) =>
      .array [.string name, .string operation])),
    ("edges", Encode.list Edge.encode p.edges)]

/-- A preview as lines: what is rendered, the components by number, the edges. -/
def lines (p : Preview) : List String :=
  (p.mode.name ++ " render of " ++ p.scenario) ::
    p.items.mapIdx (fun i (name, operation) =>
      "  " ++ natText (i + 1) ++ ". " ++ name ++ " (" ++ operation ++ ")") ++
    p.edges.map fun e => "  " ++ e.line

end Preview

/-- What a successful pass answers. -/
structure Response where
  page : Page
  mode : Mode
  tally : Tally
  /-- The reports of the components, in the order of their completion. -/
  reports : List Report

/-- What is known of a pass only by those who have run it: its identifier, when it ended, and how
long it took. -/
structure Stamp where
  passId : String
  renderedAt : String
  seconds : Nat := 0
  nanoseconds : Nat := 0

/-- The document of a response. -/
def Response.encode (r : Response) (stamp : Stamp) : Json :=
  .object [("protocol", r.page.encode), ("passId", .string stamp.passId),
    ("renderedAt", .string stamp.renderedAt), ("mode", .string r.mode.name),
    ("metrics", (r.tally.recordElapsed stamp.seconds stamp.nanoseconds).encode),
    ("reports", Encode.list Report.encode r.reports)]

namespace Service

/-! ### Preparing -/

/-- The page that a pass runs on: the snapshot with the names of its components in place, else the
default page. -/
def livePage (default : Page) (request : Request) : Page :=
  match request.snapshot with
  | some snapshot => snapshot.syncNames
  | none => default

/-- Make sure that a planned component is there, from the default page if need be. -/
def restore (scenario : String) (default live : Page) (name : String) : Except Fault Page :=
  if live.components.contains name then .ok live
  else
    match default.component? name with
    | some c => .ok { live with components := live.components.insert name c }
    | none => .error (.noComponent scenario name)

/-- Make sure that a planned component is there and has a renderer. -/
def accept (catalog : Catalog) (scenario : String) (default live : Page) (step : Step) :
    Except Fault Page := do
  let live ← restore scenario default live step.name
  match live.component? step.name with
  | some c => (catalog.renderer scenario c.typeName).map fun _ => live
  | none => pure live

/-- The parallel groups of a pass: those of the live page, or of the default page if it has none. -/
def parallelGroups (default live : Page) : Dict (List String) :=
  if live.layout.parallel.isEmpty then default.layout.parallel else live.layout.parallel

/-- Get a pass ready. -/
def prepare (s : Service) (request : Request) : Except Fault Prepared := do
  let scenario ← s.catalog.scenario request.scenario
  let default := scenario.page
  let live := livePage default request
  let plan ← Plan.ofRequest default request live
  let live ← plan.steps.foldlM (accept s.catalog request.scenario default) live
  pure ⟨live, plan, parallelGroups default live⟩

/-- The render tree of a prepared pass. -/
def Prepared.tree (p : Prepared) : Except Fault RenderTree :=
  (RenderTree.build p.plan.steps p.parallel).mapError TreeFault.fault

/-! ### Previews -/

/-- What a pass would render. -/
def preview (s : Service) (request : Request) : Except Fault Preview := do
  let prepared ← s.prepare request
  let tree ← Prepared.tree prepared
  pure {
    scenario := request.scenario
    mode := prepared.plan.mode
    items := prepared.plan.steps.map fun step => (step.name, step.event.operation)
    edges := tree.edges }

/-! ### Rendering -/

/-- What the steps of a pass share. -/
def setting (s : Service) (request : Request) : Setting where
  scenario := request.scenario
  catalog := s.catalog
  params := request.params
  locale := request.locale.getD s.settings.defaultLocale
  translator := s.translator

/-- End the step of a node. -/
def finishNode (setting : Setting) (node : Node) (job : Pass.Job) (pass : Pass) : Ending × Pass :=
  match pass.finishStep setting node.step job with
  | (.ok _, pass) => (.done, pass)
  | (.error f, pass) => (.failed f, pass)

/-- A prepared pass that has its tree, before the first step. -/
structure Ready where
  live : Page
  mode : Mode
  tree : RenderTree
  pass : Pass

/-- Everything that comes before the first step: the preparations, the refusal of an empty plan, the
tree, and a blackboard without an old report. -/
def ready (s : Service) (request : Request) : Except Fault Ready := do
  let prepared ← s.prepare request
  if prepared.plan.steps.isEmpty && s.settings.rejectEmptyPlan then
    throw (.invalidPage request.scenario "render plan is empty")
  let tree ← Prepared.tree prepared
  let live := prepared.live
  pure {
    live
    mode := prepared.plan.mode
    tree
    pass := {
      components := live.components
      blackboard := (live.blackboard.getD .empty).clearFault
      tally := { planned := prepared.plan.steps.length } } }

/-- How the nodes of a pass are run. -/
def runner (s : Service) (request : Request) (tree : RenderTree) : Runner Pass Pass.Job where
  tree := tree
  permits := s.settings.permits
  start node := Pass.startStep (s.setting request) node.step
  finish := finishNode (s.setting request)

/-- The answer of a pass that is over, given what has come of the walk. -/
def answer (live : Page) (mode : Mode) (outcome : Except Fault (List Nat)) (pass : Pass) :
    Except Fault Response :=
  match pass.blackboard.fault? with
  | some f => .error (.business f)
  | none => outcome.map fun _ => {
      page := { live with components := pass.components, blackboard := some pass.blackboard }
      mode
      tally := pass.tally
      reports := pass.reports }

/-- Run a pass that is ready. -/
def run (s : Service) (request : Request) (ready : Ready) : Except Fault Response :=
  let (outcome, pass) := Dispatch.run (s.runner request ready.tree) ready.pass
  answer ready.live ready.mode outcome pass

/-- Run the pass of a request. It breaks down before the first step if the settings ask for too many
permits. -/
def render (s : Service) (request : Request) : Except Halt Response := do
  let ready ← (s.ready request).mapError .fault
  match (s.runner request ready.tree).overload? with
  | some p => throw (.panic p)
  | none => (s.run request ready).mapError .fault

end Service

end PageRender
