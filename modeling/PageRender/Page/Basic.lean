import PageRender.Blackboard.Basic
import PageRender.Page.Component

/-!
# Pages

A page is the document of one scenario: its components, how they nest, which components render again
after which, and the blackboard of the pass. A client sends it back with its next interaction.
-/

namespace PageRender

/-- A binding as it is written: the key of the state that it fills, and where the value comes
from. -/
structure WrittenBinding where
  target : String
  expression : String
deriving DecidableEq

/-- A place in a rendering list: the component that renders, and its bindings. -/
structure Slot where
  name : String
  bindings : List WrittenBinding := []
deriving DecidableEq

/-- Append a binding. -/
def Slot.bind (slot : Slot) (target expression : String) : Slot :=
  { slot with bindings := slot.bindings ++ [⟨target, expression⟩] }

/-- How the components nest, and which may render at the same time after which. -/
structure Layout where
  version : String := ""
  root : String := ""
  /-- The nesting, which only clients read. -/
  nesting : Fields := .empty
  /-- The parallel groups: a component, and those that may render together once it has. -/
  parallel : Dict (List String) := .empty

/-- The document of one scenario. -/
structure Page where
  version : String := ""
  scenario : String := ""
  layout : Layout := {}
  components : Dict Component := .empty
  /-- The rendering lists: what renders again after a component. -/
  rendering : Dict (List Slot) := .empty
  blackboard : Option Blackboard := none

namespace Page

/-- The key of the rendering list with which a page opens. -/
def defaultKey : String := "__DefaultRendering__"

instance : Inhabited Page := ⟨{}⟩

/-- Give every component the name under which it is kept. -/
def syncNames (p : Page) : Page :=
  { p with components := p.components.map fun key c => { c with name := key } }

/-- The component of a name. -/
def component? (p : Page) (name : String) : Option Component :=
  p.components.get? name

/-- Put a component under its own name. -/
def withComponent (p : Page) (c : Component) : Page :=
  { p with components := p.components.insert c.name c }

/-- Change a component, if it is there. -/
def modifyComponent (p : Page) (name : String) (f : Component → Component) : Page :=
  match p.component? name with
  | some c => { p with components := p.components.insert name (f c) }
  | none => p

/-- Declare what renders after a component. -/
def withRendering (p : Page) (key : String) (slots : List Slot) : Page :=
  { p with rendering := p.rendering.insert key slots }

/-- Declare with which list the page opens. -/
def withDefaultRendering (p : Page) (slots : List Slot) : Page :=
  p.withRendering defaultKey slots

/-- Declare the parallel group of a component. -/
def withParallel (p : Page) (parent : String) (children : List String) : Page :=
  { p with layout := { p.layout with parallel := p.layout.parallel.insert parent children } }

/-- The list with which the page opens. -/
def defaultRendering? (p : Page) : Option (List Slot) :=
  p.rendering.get? defaultKey

/-- What renders after a component. -/
def downstream? (p : Page) (name : String) : Option (List Slot) :=
  p.rendering.get? name

/-- Give the page a blackboard, unless it has one. -/
def ensureBlackboard (p : Page) : Page :=
  { p with blackboard := some (p.blackboard.getD .empty) }

end Page

end PageRender
