import PageRender.CommandLine.Arguments
import PageRender.CommandLine.ScenarioFile

/-!
# Running a command

What a command does, given the files that it may read: it prints lines, or it writes a file, or it
fails with a message.
-/

namespace PageRender

namespace CommandLine

/-- The contents of the files that can be read, by path. -/
abbrev Files := String → Option String

/-- What has come of a command. -/
inductive Outcome
  /-- A pass has run; its page or its whole response goes to the output or to a file. -/
  | rendered (response : Response) (verbose : Bool) (output : Option String)
  /-- A pass has been planned; the plan is shown as lines or as a document. -/
  | planned (preview : Preview) (json : Bool)
  /-- A failure, in words. -/
  | failed (message : String)
  /-- A breakdown. -/
  | crashed (panic : Panic)
  /-- The arguments ask for help. -/
  | helped (topic : Topic)
  /-- The arguments are not understood. -/
  | misused

/-- What a command leaves behind. -/
inductive Reply
  /-- Text for the standard output. -/
  | print (text : String)
  /-- Text for a file. -/
  | write (path text : String)
  /-- A failure, in words. -/
  | fail (message : String)
  /-- A breakdown, with its text if it has one. -/
  | crash (text : Option String)
  /-- The arguments are not understood. -/
  | usage
deriving DecidableEq

/-- The message of a file that cannot be written. -/
def writeFailure (path : String) : String :=
  "writing snapshot " ++ path

/-- Read the scenario file. -/
def loadScenario (files : Files) (path : String) : Except String ScenarioFile :=
  match files path with
  | none => .error ("reading scenario document " ++ path)
  | some text =>
    match Decode.text? ScenarioFile.decode text with
    | some f => .ok f
    | none => .error ("parsing scenario document " ++ path)

/-- Read a page that an earlier pass has answered. -/
def loadSnapshot (files : Files) (path : String) : Except String Page :=
  match files path with
  | none => .error ("reading snapshot " ++ path)
  | some text => (Page.ofText text).mapError Fault.message

/-- The component and the operation of an event, both not empty. -/
def eventTarget (text : String) : Except String (String × String) :=
  match cutAt? '.' text.toList with
  | some (c :: component, o :: operation) =>
    .ok (String.ofList (c :: component), String.ofList (o :: operation))
  | _ => .error ("event must look like component.operation, got `" ++ text ++ "`")

/-- The payload of an event, empty if none is given. -/
def eventPayload : Option String → Except String Fields
  | none => .ok .empty
  | some text =>
    match Decode.text? Decode.fields text with
    | some payload => .ok payload
    | none => .error "event payload must be a JSON object"

/-- An event with its payload. -/
def event (text : String) (payload : Option String) : Except String Event := do
  let (component, operation) ← eventTarget text
  let payload ← eventPayload payload
  pure { component, operation, payload }

/-- A parameter: a key and a value, which is a text where it is no document. -/
def param (text : String) : Except String (String × Value) :=
  match cutAt? '=' text.toList with
  | some (key, raw) =>
    let raw := String.ofList raw
    .ok (String.ofList key, (Decode.text? Decode.value raw).getD (.ofString raw))
  | none => .error ("parameter must look like key=value, got `" ++ text ++ "`")

/-- The scenario file and the request of a command. -/
def load (files : Files) (options : RequestOptions) : Except String (ScenarioFile × Request) := do
  let file ← loadScenario files options.scenario
  let snapshot ← options.snapshot.mapM (loadSnapshot files)
  let event ← options.event.mapM fun text => event text options.payload
  let params ← options.params.mapM param
  pure (file, {
    scenario := file.page.scenario
    event
    params := Dict.ofList params
    snapshot
    only := options.only
    locale := options.locale })

/-- Run a command. -/
def execute (files : Files) : Invocation → Except String Outcome
  | .render options maxParallel rejectEmptyPlan output verbose => do
    let (file, request) ← load files options
    let catalog ← file.catalog.mapError Fault.message
    let service : Service := { catalog, settings := { maxParallel, rejectEmptyPlan } }
    match service.render request with
    | .ok response => pure (.rendered response verbose output)
    | .error (.fault f) => throw f.message
    | .error (.panic p) => pure (.crashed p)
  | .plan options json => do
    let (file, request) ← load files options
    let catalog ← file.catalog.mapError Fault.message
    let preview ← (Service.preview { catalog } request).mapError Fault.message
    pure (.planned preview json)

/-- Run the command of the arguments. -/
def run (files : Files) (arguments : List String) : Outcome :=
  match parse arguments with
  | .error (.help topic) => .helped topic
  | .error .misuse => .misused
  | .ok invocation =>
    match execute files invocation with
    | .ok outcome => outcome
    | .error message => .failed message

/-- The lines of a plan. -/
def planLines (preview : Preview) (json : Bool) : List String :=
  if json then [preview.encode.pretty] else preview.lines

/-- What is shown of an outcome, given the stamp of the pass. -/
def Outcome.reply (stamp : Stamp) : Outcome → Reply
  | .rendered response verbose output =>
    let text := if verbose then (response.encode stamp).pretty else response.page.text
    match output with
    | some path => .write path text
    | none => .print (text ++ "\n")
  | .planned preview json => .print (String.join ((planLines preview json).map (· ++ "\n")))
  | .failed message => .fail message
  | .crashed p => .crash p.text
  | .helped topic => .print topic.text
  | .misused => .usage

end CommandLine

end PageRender
