import PageRender.Json.Decode
import PageRender.Text.Pieces
import PageRender.Translator

/-!
# Faults

Why a page could not be rendered. Every fault has an English message; a translator may replace it by
a template in which the arguments of the fault are named in braces.

A business fault is not a defect: a component reports it, and it wins over all other faults of the
pass.
-/

namespace PageRender

/-- What a component reports when the work itself is refused. -/
structure BusinessFault where
  message : String
  code : Option String
deriving DecidableEq

namespace BusinessFault

/-- The message, after its code in brackets. -/
def display (f : BusinessFault) : String :=
  match f.code with
  | some code => "[" ++ code ++ "] " ++ f.message
  | none => f.message

/-- A text as it stands, any other value in JSON. -/
def plainText (v : Value) : String :=
  v.string?.getD v.text

/-- The fault that a value reports. Null reports none; a text is the message; an object has a
message and a code, and is its own message where it has no text for one. -/
def ofValue? (v : Value) : Option BusinessFault :=
  match v.json with
  | .null => none
  | .object _ =>
    let members := v.members?.getD []
    some {
      message := ((members.lookup "message").bind Value.string?).getD v.text
      code := (members.lookup "code").map plainText }
  | _ => some ⟨plainText v, none⟩

/-- The value that reports a fault. -/
def toValue (f : BusinessFault) : Value :=
  Value.ofMembers (("message", .ofString f.message) ::
    match f.code with
    | some code => [("code", .ofString code)]
    | none => [])

/-- The document of a fault. -/
def encode (f : BusinessFault) : Json :=
  .object (Encode.field "message" (.string f.message) ++ Encode.present "code" .string f.code)

/-- Decode the document of a fault. -/
def decode : Decoder BusinessFault :=
  Decode.record ["message", "code"] fun depth slots => do
    some {
      message := ← Decode.required depth slots "message" Decode.string
      code := ← Decode.optional depth slots "code" none (Decode.nullable Decode.string) }

end BusinessFault

/-- Why a pass or a part of it failed. -/
inductive Fault
  /-- The scenario is not in the catalog. -/
  | unknownScenario (scenario : String)
  /-- A component type has no renderer. -/
  | noRenderer (scenario typeName : String)
  /-- The text of a binding is malformed. -/
  | invalidBinding (expression reason : String)
  /-- The page of a scenario is refused. -/
  | invalidPage (scenario reason : String)
  /-- The parallel groups would make a component wait for itself. -/
  | invalidTree (reason : String)
  /-- Neither the live page nor the default one has the component. -/
  | noComponent (scenario component : String)
  /-- Only this component was asked for, and it is not planned. -/
  | notPlanned (component : String)
  /-- A binding reads a component that has not rendered yet. -/
  | notRendered (component dependency : String)
  /-- A binding reads a key that the component's state lacks. -/
  | noState (component key : String)
  /-- The component has no handler for the operation. -/
  | noOperation (component operation : String)
  /-- A handler refused. -/
  | handlerFailed (component message : String)
  /-- A handler broke down. -/
  | handlerPanicked (component message : String)
  /-- A model could not be decoded or encoded. -/
  | codec (component reason : String)
  /-- A component reported a business fault. -/
  | business (fault : BusinessFault)
  /-- A document could not be decoded. -/
  | invalidEncoding (reason : String)
  /-- Something that should not happen. -/
  | internal (message : String)
deriving DecidableEq

namespace Fault

/-- Who has to mend a fault. -/
inductive Category
  | configuration
  | page
  | handler
  | business
  | internal
deriving DecidableEq

/-- The category of a fault. -/
def category : Fault → Category
  | unknownScenario .. | noRenderer .. | invalidBinding .. | invalidPage .. | invalidTree .. =>
    .configuration
  | noComponent .. | notPlanned .. | notRendered .. | noState .. | invalidEncoding .. => .page
  | noOperation .. | handlerFailed .. | handlerPanicked .. | codec .. => .handler
  | business .. => .business
  | internal .. => .internal

/-- Whether a fault points at the way the program was put together. -/
def isFatal : Fault → Bool
  | noOperation .. | noRenderer .. | unknownScenario .. | internal .. => true
  | _ => false

/-- The English message. -/
def message : Fault → String
  | unknownScenario scenario => "Unknown scenario: " ++ scenario
  | noRenderer scenario typeName =>
    "No renderer for component type " ++ typeName ++ " in scenario " ++ scenario
  | invalidBinding expression reason => "Invalid state binding `" ++ expression ++ "`: " ++ reason
  | invalidPage scenario reason => "Invalid protocol for scenario " ++ scenario ++ ": " ++ reason
  | invalidTree reason => "Invalid dependency graph: " ++ reason
  | noComponent scenario component =>
    "Component " ++ component ++ " not found in scenario " ++ scenario
  | notPlanned component => "Component " ++ component ++ " is not part of the render plan"
  | notRendered component dependency =>
    "Component " ++ component ++ " depends on " ++ dependency ++
      ", which has not rendered in this pass"
  | noState component key => "State " ++ key ++ " not found on component " ++ component
  | noOperation component operation =>
    "Operation " ++ operation ++ " is not registered on component " ++ component
  | handlerFailed component text => "Component " ++ component ++ " failed: " ++ text
  | handlerPanicked component text => "Component " ++ component ++ " panicked: " ++ text
  | codec component reason => "Codec error on component " ++ component ++ ": " ++ reason
  | business fault => "Business error: " ++ fault.display
  | invalidEncoding reason => "Invalid encoding: " ++ reason
  | internal text => "Internal error: " ++ text

/-- The key under which translators know a fault. -/
def messageKey : Fault → String
  | unknownScenario .. => "error.unknown_scenario"
  | noRenderer .. => "error.renderer_not_found"
  | invalidBinding .. => "error.invalid_binding"
  | invalidPage .. => "error.invalid_protocol"
  | invalidTree .. => "error.invalid_graph"
  | noComponent .. => "error.component_not_found"
  | notPlanned .. => "error.not_in_plan"
  | notRendered .. => "error.undeclared_dependency"
  | noState .. => "error.state_not_found"
  | noOperation .. => "error.operation_not_registered"
  | handlerFailed .. => "error.handler_failed"
  | handlerPanicked .. => "error.handler_panicked"
  | codec .. => "error.codec"
  | business .. => "error.business"
  | invalidEncoding .. => "error.invalid_encoding"
  | internal .. => "error.internal"

/-- The arguments of a fault, by the names that templates use. -/
def arguments : Fault → List (String × String)
  | unknownScenario scenario => [("scenario", scenario)]
  | noRenderer scenario typeName => [("scenario", scenario), ("type", typeName)]
  | invalidBinding expression reason => [("expression", expression), ("reason", reason)]
  | invalidPage scenario reason => [("scenario", scenario), ("reason", reason)]
  | invalidTree reason => [("reason", reason)]
  | noComponent scenario component => [("scenario", scenario), ("component", component)]
  | notPlanned component => [("component", component)]
  | notRendered component dependency => [("component", component), ("dependency", dependency)]
  | noState component key => [("component", component), ("key", key)]
  | noOperation component operation => [("component", component), ("operation", operation)]
  | handlerFailed component text => [("component", component), ("message", text)]
  | handlerPanicked component text => [("component", component), ("message", text)]
  | codec component reason => [("component", component), ("reason", reason)]
  | business fault => [("message", fault.message)]
  | invalidEncoding reason => [("reason", reason)]
  | internal text => [("message", text)]

/-- The place of an argument in a template: its name in braces. -/
def placeholder (name : String) : List Char :=
  '{' :: name.toList ++ ['}']

/-- Put arguments into a template, one after the other. -/
def fill (template : List Char) (arguments : List (String × String)) : List Char :=
  arguments.foldl (fun text (name, argument) =>
    replaceAll (placeholder name) argument.toList text) template

/-- The message of a fault in a locale: the translator's template with the arguments in their
places, or the English message where there is no template. -/
def describe (f : Fault) (translator : Translator) (locale : String) : String :=
  match translator.text? locale f.messageKey with
  | some template => String.ofList (fill template.toList f.arguments)
  | none => f.message

end Fault

/-- The state that a call leaves, where a state is dropped with the fault of its call. -/
def kept {ε σ : Type} : Except ε Unit × σ → Except ε σ
  | (.ok (), state) => .ok state
  | (.error fault, _) => .error fault

end PageRender
