import PageRender.Json.Decode

/-!
# Components

A component of a page: its name and type, and the containers that its type reads and writes.
-/

namespace PageRender

/-- How a component is rendered. -/
structure Flags where
  /-- Whether the component showed in the last pass. -/
  visible : Bool := true
  /-- Whether nested extra entries are moved into their parent after encoding. -/
  flatExtra : Bool := false
deriving DecidableEq

instance : Inhabited Flags := ⟨{}⟩

/-- A named component of some type. A container may be absent, which differs from an empty one. -/
structure Component where
  name : String := ""
  typeName : String
  version : String := ""
  props : Option Fields := none
  data : Option Fields := none
  state : Option Fields := none
  operations : Option Fields := none
  flags : Option Flags := none

namespace Component

/-- A component without containers. -/
def ofType (name typeName : String) : Component :=
  { name, typeName }

/-- Make every container and the flags present. -/
def normalize (c : Component) : Component :=
  { c with
    props := some (c.props.getD .empty)
    data := some (c.data.getD .empty)
    state := some (c.state.getD .empty)
    operations := some (c.operations.getD .empty)
    flags := some (c.flags.getD {}) }

/-- The state, empty if it is absent. -/
def stateFields (c : Component) : Fields :=
  c.state.getD .empty

/-- The value of a key of the state. -/
def stateValue? (c : Component) (key : String) : Option Value :=
  c.state.bind (·.get? key)

/-- Change the props, which are made present. -/
def modifyProps (c : Component) (f : Fields → Fields) : Component :=
  { c with props := some (f (c.props.getD .empty)) }

/-- Change the data, which are made present. -/
def modifyData (c : Component) (f : Fields → Fields) : Component :=
  { c with data := some (f (c.data.getD .empty)) }

/-- Change the state, which is made present. -/
def modifyState (c : Component) (f : Fields → Fields) : Component :=
  { c with state := some (f c.stateFields) }

/-- Change the flags, which are made present. -/
def modifyFlags (c : Component) (f : Flags → Flags) : Component :=
  { c with flags := some (f (c.flags.getD {})) }

/-- Write a value to a key of the state. -/
def setState (c : Component) (key : String) (value : Value) : Component :=
  c.modifyState (·.insert key value)

/-- Record whether the component shows. -/
def setVisible (c : Component) (visible : Bool) : Component :=
  c.modifyFlags ({ · with visible })

/-- Whether the component showed in the last pass; it did if nothing is recorded. -/
def isVisible (c : Component) : Bool :=
  match c.flags with
  | some flags => flags.visible
  | none => true

end Component

/-! ### Documents -/

/-- The document of flags. -/
def Flags.encode (flags : Flags) : Json :=
  .object [("visible", .bool flags.visible), ("flatExtra", .bool flags.flatExtra)]

/-- Decode flags. -/
def Flags.decode : Decoder Flags :=
  Decode.record ["visible", "flatExtra"] fun depth slots => do
    some {
      visible := ← Decode.optional depth slots "visible" true Decode.bool
      flatExtra := ← Decode.optional depth slots "flatExtra" false Decode.bool }

namespace Component

/-- The document of a component, without what is absent or empty. -/
def encode (c : Component) : Json :=
  .object (
    Encode.field "name" (.string c.name) ++
    Encode.field "type" (.string c.typeName) ++
    Encode.nonempty "version" c.version ++
    Encode.present "props" Fields.encode c.props ++
    Encode.present "data" Fields.encode c.data ++
    Encode.present "state" Fields.encode c.state ++
    Encode.present "operations" Fields.encode c.operations ++
    Encode.present "options" Flags.encode c.flags)

/-- Decode a component. Only its type must be given. -/
def decode : Decoder Component :=
  Decode.record
    ["name", "type", "version", "props", "data", "state", "operations", "options"]
    fun depth slots => do
      let container name := Decode.optional depth slots name none (Decode.nullable Decode.fields)
      some {
        name := ← Decode.optional depth slots "name" "" Decode.string
        typeName := ← Decode.required depth slots "type" Decode.string
        version := ← Decode.optional depth slots "version" "" Decode.string
        props := ← container "props"
        data := ← container "data"
        state := ← container "state"
        operations := ← container "operations"
        flags := ← Decode.optional depth slots "options" none (Decode.nullable Flags.decode) }

/-- Two components are the same, the order of keys apart. -/
def same (c d : Component) : Bool :=
  c.name == d.name && c.typeName == d.typeName && c.version == d.version &&
    sameOption Fields.same c.props d.props && sameOption Fields.same c.data d.data &&
    sameOption Fields.same c.state d.state && sameOption Fields.same c.operations d.operations &&
    c.flags == d.flags

end Component

end PageRender
