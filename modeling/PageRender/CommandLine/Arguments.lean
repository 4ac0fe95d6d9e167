import PageRender.CommandLine.Help
import PageRender.Text.Pieces

/-!
# Command line arguments

How arguments are understood. They are read from the left to the right, and the first of them that
is wrong or asks for help decides.

An option takes its value from the next argument, or from the same one: after an equals sign, or
right after a short name. A next argument that begins with a hyphen is no value, unless it is the
hyphen alone. Options may be given once, parameters any number of times.
-/

namespace PageRender

namespace CommandLine

/-- Why arguments come to no invocation. -/
inductive Detour
  /-- They ask for help. -/
  | help (topic : Topic)
  /-- They are not understood. -/
  | misuse
deriving DecidableEq

/-! ### Words -/

/-- An argument that is not the name of an option: it does not begin with a hyphen, or is one. -/
def isPlain (argument : String) : Bool :=
  match argument.toList with
  | '-' :: _ :: _ => false
  | _ => true

/-- An argument as it stands: a long name, a short name, the end of the options, or none of these. A
name may bring a value along. -/
inductive Word
  | long (name : String) (value : Option String)
  | short (name : Char) (value : Option String)
  | endOfOptions
  | plain

namespace Word

/-- What an argument is. -/
def ofArgument (argument : String) : Word :=
  match argument.toList with
  | ['-', '-'] => .endOfOptions
  | '-' :: '-' :: rest =>
    match cutAt? '=' rest with
    | some (name, value) => .long (String.ofList name) (some (String.ofList value))
    | none => .long (String.ofList rest) none
  | '-' :: name :: [] => .short name none
  | '-' :: name :: '=' :: value => .short name (some (String.ofList value))
  | '-' :: name :: value => .short name (some (String.ofList value))
  | _ => .plain

/-- Whether a word asks for help. Whatever follows the short name is not looked at. -/
def asksForHelp : Word → Bool
  | long "help" none => true
  | short 'h' _ => true
  | _ => false

/-- The option of a command that a word names, with the value that it brings along. -/
def option? (command : Command) : Word → Option (OptionName × Option String)
  | long name value => (command.ofLong? name).map (·, value)
  | short name value => (command.ofShort? name).map (·, value)
  | _ => none

end Word

/-! ### Options that are given -/

/-- An option with its value; a switch has none. -/
structure Given where
  name : OptionName
  value : Option String
deriving DecidableEq

/-- Whether an option is given. -/
def isGiven (name : OptionName) (given : List Given) : Bool :=
  given.any fun g => g.name = name

/-- The values of an option. -/
def valuesOf (name : OptionName) (given : List Given) : List String :=
  given.filterMap fun g => if g.name = name then g.value else none

/-- The value of an option that may be given once. -/
def valueOf? (name : OptionName) (given : List Given) : Option String :=
  (valuesOf name given).head?

/-- Add an option to those given before it, the last first. Its value must be of its kind, and only
parameters may be given again. -/
def give (given : List Given) (g : Given) : Except Detour (List Given) :=
  if (g.name = .param || !isGiven g.name given) && g.value.all g.name.kind.accepts then
    .ok (g :: given)
  else .error .misuse

/-- Read the arguments of a command. -/
def readOptions (command : Command) (given : List Given) : List String → Except Detour (List Given)
  | [] => .ok given.reverse
  | argument :: rest =>
    let word := Word.ofArgument argument
    if word.asksForHelp then .error (.help (.command command))
    else
      match word.option? command with
      | none => if argument = "--" ∧ rest = [] then .ok given.reverse else .error .misuse
      | some (name, value) =>
        if name.kind = .switch then
          match value with
          | some _ => .error .misuse
          | none => do readOptions command (← give given ⟨name, none⟩) rest
        else
          match value, rest with
          | some value, rest => do readOptions command (← give given ⟨name, some value⟩) rest
          | none, next :: rest =>
            if isPlain next then do readOptions command (← give given ⟨name, some next⟩) rest
            else .error .misuse
          | none, [] => .error .misuse

/-! ### Invocations -/

/-- The options that are common to the commands. -/
structure RequestOptions where
  scenario : String
  snapshot : Option String
  event : Option String
  payload : Option String
  params : List String
  only : Option String
  locale : Option String

/-- A command with its options. -/
inductive Invocation
  | render (request : RequestOptions) (maxParallel : Option Nat) (rejectEmptyPlan : Bool)
      (output : Option String) (verbose : Bool)
  | plan (request : RequestOptions) (json : Bool)

/-- The options that are common to the commands. The scenario must be given. -/
def requestOptions? (given : List Given) : Option RequestOptions := do
  some {
    scenario := ← valueOf? .scenario given
    snapshot := valueOf? .snapshot given
    event := valueOf? .event given
    payload := valueOf? .payload given
    params := valuesOf .param given
    only := valueOf? .only given
    locale := valueOf? .locale given }

/-- A command with the options that are given. -/
def Invocation.ofGiven (command : Command) (request : RequestOptions) (given : List Given) :
    Invocation :=
  match command with
  | .render =>
    .render request ((valueOf? .maxParallel given).bind count?) (isGiven .rejectEmptyPlan given)
      (valueOf? .output given) (isGiven .verbose given)
  | .plan => .plan request (isGiven .json given)

/-- A command with the arguments that follow it. -/
def invocation (command : Command) (arguments : List String) : Except Detour Invocation := do
  let given ← readOptions command [] arguments
  match requestOptions? given with
  | some request => pure (.ofGiven command request given)
  | none => throw .misuse

/-- Arguments that begin with a command, or ask for help instead. -/
def parseCommand : List String → Except Detour Invocation
  | [] => .error .misuse
  | "help" :: names =>
    match Topic.ofNames? names with
    | some topic => .error (.help topic)
    | none => .error .misuse
  | argument :: rest =>
    if (Word.ofArgument argument).asksForHelp then .error (.help .program)
    else
      match Command.ofName? argument with
      | some command => invocation command rest
      | none => .error .misuse

/-- All arguments. Before the command only the switch that belongs to no command may stand, once. -/
def parse : List String → Except Detour Invocation
  | "--json-logs" :: arguments => parseCommand arguments
  | arguments => parseCommand arguments

end CommandLine

end PageRender
