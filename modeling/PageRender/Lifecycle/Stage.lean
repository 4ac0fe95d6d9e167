import PageRender.Fault

/-!
# Stages of a render

The stages through which the render of one component goes, and the record of those that it has gone
through.
-/

namespace PageRender

/-- Where the render of a component stands. -/
inductive Stage
  | uninitialized
  | decoded
  /-- The component does not show, and no operation ran. -/
  | skipped
  | operationHandled
  | encoded
  | finalized
deriving DecidableEq

namespace Stage

/-- The name of a stage. -/
def name : Stage → String
  | uninitialized => "Uninitialized"
  | decoded => "Decoded"
  | skipped => "Skipped"
  | operationHandled => "OperationHandled"
  | encoded => "Encoded"
  | finalized => "Finalized"

/-- The stages that may follow. -/
def next : Stage → List Stage
  | uninitialized => [decoded]
  | decoded => [skipped, operationHandled]
  | skipped => [encoded]
  | operationHandled => [encoded]
  | encoded => [finalized]
  | finalized => []

/-- Whether one stage may follow another. -/
def allows (current following : Stage) : Bool :=
  current.next.contains following

end Stage

/-- The stages gone through so far. A render begins uninitialized. -/
structure Trace where
  /-- The stages after the first, in order. -/
  later : List Stage := []
deriving DecidableEq

namespace Trace

/-- The stages in order. -/
def stages (t : Trace) : List Stage :=
  .uninitialized :: t.later

/-- The stage gone through last. -/
def current (t : Trace) : Stage :=
  t.later.getLast?.getD .uninitialized

/-- Go on to a stage; it is a fault if the stage may not follow. -/
def advance (t : Trace) (component : String) (next : Stage) : Except Fault Trace :=
  if t.current.allows next then .ok ⟨t.later ++ [next]⟩
  else
    .error (.internal ("illegal lifecycle transition " ++ t.current.name ++ " -> " ++ next.name ++
      " on component " ++ component))

/-- The document of a trace. -/
def encode (t : Trace) : Json :=
  .object [("states", .array (t.stages.map fun s => .string s.name))]

end Trace

end PageRender
