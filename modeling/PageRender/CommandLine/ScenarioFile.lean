import PageRender.Kind.Plain
import PageRender.Service.Basic

/-!
# Scenario files

A scenario file holds the default page of a scenario and says which component types are flattened.
All its components are rendered plainly.
-/

namespace PageRender

/-- What a scenario file holds. -/
structure ScenarioFile where
  page : Page
  /-- The component types whose extra entries are flattened. -/
  flatten : List String

namespace ScenarioFile

/-- Decode a scenario file. A key that it gives replaces the page's own scenario. -/
def decode : Decoder ScenarioFile :=
  Decode.record ["key", "protocol", "flatten"] fun depth slots => do
    let key ← Decode.optional depth slots "key" none (Decode.nullable Decode.string)
    let page ← Decode.required depth slots "protocol" Page.decode
    let flatten ← Decode.optional depth slots "flatten" [] (Decode.list Decode.string)
    some {
      page := { page with scenario := key.getD page.scenario }.syncNames
      flatten }

/-- The component types, in the order in which they first occur. -/
def typeNames (f : ScenarioFile) : List String :=
  (f.page.components.values.map Component.typeName).eraseDups

/-- The scenario, with a plain kind for every type. -/
def scenario (f : ScenarioFile) : Scenario :=
  f.typeNames.foldl (fun s typeName =>
    s.withKind { Kind.plain typeName with flattens := f.flatten.contains typeName })
    (Scenario.ofPage f.page)

/-- The catalog of this one scenario. -/
def catalog (f : ScenarioFile) : Except Fault Catalog :=
  kept (Catalog.register {} f.scenario)

end ScenarioFile

end PageRender
