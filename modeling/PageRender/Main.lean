import PageRender.CommandLine.Run
import PageRender.PassId
import PageRender.Service.Clock
import Std.Time.DateTime.Timestamp

/-!
# The program

The command line program: it reads the files that the arguments name, runs the command, and prints
or writes what comes of it. It exits with 0 on success, with 1 on a failure, with 2 if the arguments
are not understood, and with 101 on a breakdown.
-/

namespace PageRender

namespace CommandLine

/-- The text of a file, if it can be read. -/
def readFile (path : String) : IO (Option String) := do
  try
    return some (← IO.FS.readFile path)
  catch _ =>
    return none

/-- The paths of the files that a command reads. -/
def Invocation.inputs : Invocation → List String
  | .render request _ _ _ _ => request.scenario :: request.snapshot.toList
  | .plan request _ => request.scenario :: request.snapshot.toList

/-- The files of the arguments. -/
def readInputs (arguments : List String) : IO Files := do
  let paths := ((parse arguments).map Invocation.inputs).toOption.getD []
  let contents ← paths.mapM readFile
  let table := paths.zip contents
  return fun path => (table.lookup path).join

/-- A fresh identifier: random, with the version and the variant of random identifiers. -/
def freshId : IO PassId := do
  let bytes ← IO.getRandomBytes 16
  let bytes := bytes.toList.mapIdx fun i byte =>
    if i = 6 then byte.toNat % 16 + 64 else if i = 8 then byte.toNat % 64 + 128 else byte.toNat
  return .ofBytes bytes

/-- The present moment. -/
def now : IO Moment := do
  let time ← Std.Time.Timestamp.now
  let nanoseconds := time.toNanosecondsSinceUnixEpoch.val.toNat
  return ⟨nanoseconds / 1000000000, nanoseconds % 1000000000⟩

/-- Print or write what has come of a command. -/
def finish : Reply → IO UInt32
  | .print text => do
    IO.print text
    return 0
  | .write path text => do
    try
      IO.FS.writeFile path text
      return 0
    catch _ =>
      IO.eprintln ("Error: " ++ writeFailure path)
      return 1
  | .fail message => do
    IO.eprintln ("Error: " ++ message)
    return 1
  | .crash text => do
    IO.eprintln ("panic: " ++ text.getD "")
    return 101
  | .usage => do
    IO.eprintln "error: the arguments are not understood"
    return 2

/-- Run the command of the arguments, measuring how long that takes. -/
def program (arguments : List String) : IO UInt32 := do
  let files ← readInputs arguments
  let id ← freshId
  let start ← IO.monoNanosNow
  let outcome ← IO.lazyPure fun _ => run files arguments
  let elapsed := (← IO.monoNanosNow) - start
  let stamp : Stamp := {
    passId := id.text
    renderedAt := (← now).text
    seconds := elapsed / 1000000000
    nanoseconds := elapsed % 1000000000 }
  finish (outcome.reply stamp)

end CommandLine

end PageRender

/-- The command line program. -/
def main (arguments : List String) : IO UInt32 :=
  PageRender.CommandLine.program arguments
