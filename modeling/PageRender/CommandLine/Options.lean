import PageRender.Number.Power

/-!
# Commands and options

The commands of the program and the options that they take: how an option is named, which values it
accepts, and what it is for.
-/

namespace PageRender

namespace CommandLine

/-- A natural number of at most 64 bits, in decimal, possibly after a plus sign. -/
def count? (text : String) : Option Nat :=
  let digits := match text.toList with
    | '+' :: digits => digits
    | digits => digits
  if digits.isEmpty || !digits.all Char.isDigit then none
  else
    let n := digits.foldl (fun n c => 10 * n + (c.toNat - '0'.toNat)) 0
    if n < wordSize then some n else none

/-- The values that an option accepts. -/
inductive ValueKind
  /-- None: the option is a switch. -/
  | switch
  | text
  /-- Any text but the empty one. -/
  | path
  /-- A natural number. -/
  | count
deriving DecidableEq

/-- Whether a text is a value of a kind. -/
def ValueKind.accepts : ValueKind → String → Bool
  | switch, _ => false
  | text, _ => true
  | path, s => !s.isEmpty
  | count, s => (count? s).isSome

/-- How an option is written, and what it is for. -/
structure OptionForm where
  short : Option Char
  long : String
  kind : ValueKind
  /-- What stands for the value where the option is explained. -/
  placeholder : String
  purpose : String

/-- An option by its meaning. -/
inductive OptionName
  | jsonLogs
  | scenario
  | snapshot
  | event
  | payload
  | param
  | only
  | locale
  | maxParallel
  | rejectEmptyPlan
  | output
  | verbose
  | json
deriving DecidableEq

/-- The form of an option. -/
def OptionName.form : OptionName → OptionForm
  | jsonLogs => ⟨none, "json-logs", .switch, "", "Emit logs as JSON"⟩
  | scenario => ⟨some 's', "scenario", .path, "SCENARIO", "Path to the scenario document"⟩
  | snapshot => ⟨none, "snapshot", .path, "SNAPSHOT", "Protocol snapshot from a previous pass"⟩
  | event => ⟨some 'e', "event", .text, "EVENT", "Triggering event as `component.operation`"⟩
  | payload => ⟨none, "payload", .text, "PAYLOAD", "Event payload as a JSON object"⟩
  | param =>
    ⟨some 'p', "param", .text, "PARAMS",
      "Caller parameter as `key=value`; values are parsed as JSON when possible"⟩
  | only => ⟨none, "debug-component", .text, "DEBUG_COMPONENT", "Render only this component"⟩
  | locale => ⟨none, "locale", .text, "LOCALE", "Request locale"⟩
  | maxParallel =>
    ⟨none, "max-parallel", .count, "MAX_PARALLEL", "Maximum components rendering at once"⟩
  | rejectEmptyPlan => ⟨none, "reject-empty-plan", .switch, "", "Fail when the plan is empty"⟩
  | output => ⟨some 'o', "output", .path, "OUTPUT", "Write the snapshot here instead of stdout"⟩
  | verbose =>
    ⟨none, "verbose", .switch, "", "Print the full response (metrics and lifecycle reports)"⟩
  | json => ⟨none, "json", .switch, "", "Print the plan as JSON"⟩

/-- The values that an option accepts. -/
def OptionName.kind (name : OptionName) : ValueKind :=
  name.form.kind

/-- The commands. -/
inductive Command
  | render
  | plan
deriving DecidableEq

namespace Command

/-- The name of a command. -/
def name : Command → String
  | render => "render"
  | plan => "plan"

/-- The command of a name. -/
def ofName? : String → Option Command
  | "render" => some render
  | "plan" => some plan
  | _ => none

/-- What a command is for. -/
def purpose : Command → String
  | render => "Run a render pass and print the resulting protocol snapshot"
  | plan => "Print the render plan and dependency edges without rendering"

/-- The options of a command, in the order in which they are explained. -/
def options (command : Command) : List OptionName :=
  [.jsonLogs, .scenario, .snapshot, .event, .payload, .param, .only, .locale] ++
    match command with
    | render => [.maxParallel, .rejectEmptyPlan, .output, .verbose]
    | plan => [.json]

/-- The option of a long name. -/
def ofLong? (command : Command) (name : String) : Option OptionName :=
  command.options.find? fun option => option.form.long = name

/-- The option of a short name. -/
def ofShort? (command : Command) (name : Char) : Option OptionName :=
  command.options.find? fun option => option.form.short = some name

end Command

end CommandLine

end PageRender
