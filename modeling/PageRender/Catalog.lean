import PageRender.Audit
import PageRender.Lifecycle.Basic

/-!
# Catalogs

The scenarios that can be rendered: for each its default page and the renderers of its component
types. Renderers may also be shared by all scenarios.
-/

namespace PageRender

/-- A scenario: its default page, and renderers by component type. -/
structure Scenario where
  key : String
  page : Page
  renderers : Dict Renderer

namespace Scenario

/-- The scenario of a page, under the page's own key and with the names of its components in
place. -/
def ofPage (page : Page) : Scenario where
  key := page.scenario
  page := page.syncNames
  renderers := .empty

/-- Bind a renderer to its type. -/
def withRenderer (s : Scenario) (r : Renderer) : Scenario :=
  { s with renderers := s.renderers.insert r.typeName r }

/-- Bind a kind to its type. -/
def withKind {M : Type} (s : Scenario) (kind : Kind M) : Scenario :=
  s.withRenderer kind.renderer

/-- The types that have a renderer here. -/
def typeNames (s : Scenario) : List String :=
  s.renderers.keys

end Scenario

/-- Scenarios by key, the renderers that they share, and the audit that admits them. -/
structure Catalog where
  scenarios : Dict Scenario := .empty
  shared : Dict Renderer := .empty
  audit : Audit := {}

namespace Catalog

/-- Register a scenario. Its key must be new, and the audit must accept its page. The catalog is the
one after the call, whether or not the scenario was accepted. -/
def register (c : Catalog) (s : Scenario) : Except Fault Unit × Catalog :=
  if c.scenarios.contains s.key then
    (.error (.invalidPage s.key "scenario already registered"), c)
  else match c.audit.check s.page with
    | .ok _ => (.ok (), { c with scenarios := c.scenarios.insert s.key s })
    | .error f => (.error f, c)

/-- Share a renderer, in place of one that has been shared for its type. -/
def share (c : Catalog) (r : Renderer) : Catalog :=
  { c with shared := c.shared.insert r.typeName r }

/-- The scenario of a key. -/
def scenario (c : Catalog) (key : String) : Except Fault Scenario :=
  match c.scenarios.get? key with
  | some s => .ok s
  | none => .error (.unknownScenario key)

/-- The default page of a scenario. -/
def defaultPage (c : Catalog) (key : String) : Except Fault Page :=
  (c.scenario key).map Scenario.page

/-- The renderer of a component type: the scenario's own, else the shared one. -/
def renderer (c : Catalog) (key typeName : String) : Except Fault Renderer := do
  let s ← c.scenario key
  match (s.renderers.get? typeName) <|> (c.shared.get? typeName) with
  | some r => .ok r
  | none => .error (.noRenderer key typeName)

/-- The keys of the scenarios. -/
def keys (c : Catalog) : List String :=
  c.scenarios.keys

end Catalog

/-- The place of the catalog that a whole program uses. It is filled once. -/
structure Installation where
  catalog : Option Catalog := none

namespace Installation

/-- Install a catalog, unless there is one. -/
def install (i : Installation) (c : Catalog) : Except Fault Installation :=
  match i.catalog with
  | none => .ok ⟨some c⟩
  | some _ => .error (.internal "registry already installed")

/-- The catalog that is installed. -/
def current (i : Installation) : Except Fault Catalog :=
  match i.catalog with
  | some c => .ok c
  | none => .error (.internal "registry not installed")

end Installation

end PageRender
