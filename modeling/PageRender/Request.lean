import PageRender.Page.Document

/-!
# Requests

What a client sends: a first open of a scenario, or an event on a page that it got earlier.
-/

namespace PageRender

/-- An operation on a component. -/
structure Event where
  /-- The component, empty when the page opens. -/
  component : String := ""
  operation : String := ""
  payload : Fields := .empty

namespace Event

/-- The operation that every component gets when its page opens. -/
def openOperation : String := "__Initialize__"

/-- The operation that a component gets when one before it has changed. -/
def refreshOperation : String := "__Rendering__"

/-- The event of a component of a page that opens. -/
def opening (component : String) : Event :=
  { component, operation := openOperation }

/-- The event of a component that renders after another. -/
def refreshing (component : String) : Event :=
  { component, operation := refreshOperation }

/-- Whether the event names a component. -/
def hasTarget (e : Event) : Bool :=
  !e.component.isEmpty

/-- The document of an event. -/
def encode (e : Event) : Json :=
  .object [("component", .string e.component), ("operation", .string e.operation),
    ("operationData", Fields.encode e.payload)]

/-- Decode an event. -/
def decode : Decoder Event :=
  Decode.record ["component", "operation", "operationData"] fun depth slots => do
    some {
      component := ← Decode.optional depth slots "component" "" Decode.string
      operation := ← Decode.optional depth slots "operation" "" Decode.string
      payload := ← Decode.optional depth slots "operationData" .empty Decode.fields }

end Event

/-- A request for one pass. -/
structure Request where
  scenario : String
  event : Option Event := none
  /-- The parameters of the caller. -/
  params : Fields := .empty
  /-- The page of the previous pass. -/
  snapshot : Option Page := none
  /-- Render this component only. -/
  only : Option String := none
  locale : Option String := none

namespace Request

/-- The event, if it names a component. -/
def target? (r : Request) : Option Event :=
  r.event.filter Event.hasTarget

/-- The document of a request. -/
def encode (r : Request) : Json :=
  .object (
    Encode.field "scenario" (.string r.scenario) ++
    Encode.present "event" Event.encode r.event ++
    Encode.field "inParams" (Fields.encode r.params) ++
    Encode.present "protocol" Page.encode r.snapshot ++
    Encode.present "debugComponent" .string r.only ++
    Encode.present "locale" .string r.locale)

/-- Decode a request. Only its scenario must be given. -/
def decode : Decoder Request :=
  Decode.record ["scenario", "event", "inParams", "protocol", "debugComponent", "locale"]
    fun depth slots => do
      some {
        scenario := ← Decode.required depth slots "scenario" Decode.string
        event := ← Decode.optional depth slots "event" none (Decode.nullable Event.decode)
        params := ← Decode.optional depth slots "inParams" .empty Decode.fields
        snapshot := ← Decode.optional depth slots "protocol" none (Decode.nullable Page.decode)
        only := ← Decode.optional depth slots "debugComponent" none (Decode.nullable Decode.string)
        locale := ← Decode.optional depth slots "locale" none (Decode.nullable Decode.string) }

end Request

end PageRender
