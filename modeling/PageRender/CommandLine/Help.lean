import PageRender.CommandLine.Options

/-!
# Help

The texts that explain the program and its commands. What an entry is for stands beside it, or below
it where the entries are long.
-/

namespace PageRender

namespace CommandLine

/-- What is explained. -/
inductive Topic
  /-- The program as a whole. -/
  | program
  | command (command : Command)
  /-- The command that explains. -/
  | help
deriving DecidableEq

namespace Topic

/-- The topic of the names that follow the command that explains. -/
def ofNames? : List String → Option Topic
  | [] => some program
  | ["help"] => some help
  | [name] => (Command.ofName? name).map command
  | _ => none

/-- What the command that explains is for. -/
def helpPurpose : String :=
  "Print this message or the help of the given subcommand(s)"

/-- An option as an entry. -/
def optionEntry (form : OptionForm) : String × String :=
  let short := match form.short with
    | some c => String.ofList ['-', c, ',', ' ']
    | none => "    "
  let value := if form.kind = .switch then "" else " <" ++ form.placeholder ++ ">"
  (short ++ "--" ++ form.long ++ value, form.purpose)

/-- The switch that asks for help. -/
def helpForm : OptionForm :=
  ⟨some 'h', "help", .switch, "", "Print help"⟩

/-- Options as entries, the switch that asks for help being the last. -/
def optionEntries (names : List OptionName) : List (String × String) :=
  (names.map OptionName.form ++ [helpForm]).map optionEntry

/-- Entries with their purposes beside them. -/
def beside (entries : List (String × String)) : List String :=
  let width := entries.foldl (fun width entry => max width entry.1.length) 0
  entries.map fun (entry, purpose) =>
    ("  " ++ entry).pushn ' ' (width + 2 - entry.length) ++ purpose

/-- Entries with their purposes below them. -/
def below (entries : List (String × String)) : List String :=
  entries.flatMap fun (entry, purpose) => ["  " ++ entry, "          " ++ purpose]

/-- The lines of a help text. -/
def lines : Topic → List String
  | program =>
    ["MOSAIC - server-driven UI render orchestration", "", "Usage: mosaic [OPTIONS] <COMMAND>", "",
        "Commands:"] ++
      beside (([.render, .plan].map fun c : Command => (c.name, c.purpose)) ++
        [("help", helpPurpose)]) ++
      ["", "Options:"] ++ beside (optionEntries [.jsonLogs])
  | command c =>
    [c.purpose, "", "Usage: mosaic " ++ c.name ++ " [OPTIONS] --scenario <SCENARIO>", "",
        "Options:"] ++
      below (optionEntries c.options)
  | help =>
    [helpPurpose, "", "Usage: mosaic help [COMMAND]...", "", "Arguments:"] ++
      beside [("[COMMAND]...", "Print help for the subcommand(s)")]

/-- The help text of a topic. -/
def text (topic : Topic) : String :=
  String.join (topic.lines.map (· ++ "\n"))

end Topic

end CommandLine

end PageRender
