import PageRender.Page.Basic

/-!
# The documents of pages

How pages and their parts are written and read. What is empty or absent is mostly left out, and only
the names of slots and bindings must be given.
-/

namespace PageRender

namespace WrittenBinding

/-- The document of a binding. -/
def encode (b : WrittenBinding) : Json :=
  .object [("name", .string b.target), ("value", .string b.expression)]

/-- Decode a binding. -/
def decode : Decoder WrittenBinding :=
  Decode.record ["name", "value"] fun depth slots => do
    some {
      target := ← Decode.required depth slots "name" Decode.string
      expression := ← Decode.required depth slots "value" Decode.string }

end WrittenBinding

namespace Slot

/-- The document of a slot. -/
def encode (slot : Slot) : Json :=
  .object (
    Encode.field "name" (.string slot.name) ++
    if slot.bindings.isEmpty then []
    else Encode.field "state" (Encode.list WrittenBinding.encode slot.bindings))

/-- Decode a slot. -/
def decode : Decoder Slot :=
  Decode.record ["name", "state"] fun depth slots => do
    some {
      name := ← Decode.required depth slots "name" Decode.string
      bindings := ←
        Decode.optional depth slots "state" [] (Decode.list WrittenBinding.decode) }

end Slot

namespace Layout

/-- The document of a layout. -/
def encode (l : Layout) : Json :=
  .object (
    Encode.nonempty "version" l.version ++
    Encode.field "root" (.string l.root) ++
    Encode.field "structure" (Fields.encode l.nesting) ++
    if l.parallel.isEmpty then []
    else Encode.field "parallel" (Encode.dict (Encode.list .string) l.parallel))

/-- Decode a layout. -/
def decode : Decoder Layout :=
  Decode.record ["version", "root", "structure", "parallel"] fun depth slots => do
    some {
      version := ← Decode.optional depth slots "version" "" Decode.string
      root := ← Decode.optional depth slots "root" "" Decode.string
      nesting := ← Decode.optional depth slots "structure" .empty Decode.fields
      parallel := ←
        Decode.optional depth slots "parallel" .empty (Decode.dict (Decode.list Decode.string)) }

/-- Two layouts are the same, the order of keys apart. -/
def same (l m : Layout) : Bool :=
  l.version == m.version && l.root == m.root && Fields.same l.nesting m.nesting &&
    Dict.sameBy (· == ·) l.parallel m.parallel

end Layout

namespace Page

/-- The document of a page. -/
def encode (p : Page) : Json :=
  .object (
    Encode.nonempty "version" p.version ++
    Encode.field "scenario" (.string p.scenario) ++
    Encode.field "hierarchy" p.layout.encode ++
    Encode.field "components" (Encode.dict Component.encode p.components) ++
    Encode.field "rendering" (Encode.dict (Encode.list Slot.encode) p.rendering) ++
    Encode.present "globalState" Blackboard.encode p.blackboard)

/-- Decode a page as it is written. -/
def decode : Decoder Page :=
  Decode.record
    ["version", "scenario", "hierarchy", "components", "rendering", "globalState"]
    fun depth slots => do
      some {
        version := ← Decode.optional depth slots "version" "" Decode.string
        scenario := ← Decode.optional depth slots "scenario" "" Decode.string
        layout := ← Decode.optional depth slots "hierarchy" {} Layout.decode
        components := ←
          Decode.optional depth slots "components" .empty (Decode.dict Component.decode)
        rendering := ←
          Decode.optional depth slots "rendering" .empty (Decode.dict (Decode.list Slot.decode))
        blackboard := ←
          Decode.optional depth slots "globalState" none (Decode.nullable Blackboard.decode) }

/-- Two pages are the same, the order of keys apart. -/
def same (p q : Page) : Bool :=
  p.version == q.version && p.scenario == q.scenario && p.layout.same q.layout &&
    Dict.sameBy Component.same p.components q.components &&
    Dict.sameBy (· == ·) p.rendering q.rendering &&
    sameOption Blackboard.same p.blackboard q.blackboard

/-- Read the text of a page and give every component the name under which it is kept. -/
def ofText (text : String) : Except Fault Page :=
  match Decode.text? decode text with
  | some p => .ok p.syncNames
  | none => .error (.invalidEncoding "not the document of a page")

/-- The text of a page, pretty. -/
def text (p : Page) : String :=
  p.encode.pretty

end Page

end PageRender
