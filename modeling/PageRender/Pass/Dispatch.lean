import PageRender.Kind.Basic
import PageRender.Pass.Walk

/-!
# Dispatching

How the nodes of a render tree are run, several at a time. Every scheduled node is a unit of its
own. It queues for a permit, if their number is bounded, runs with the permit in hand, gives it
back, and then waits until the units of the children that it has scheduled are over. What a node
needs to run it finds in the world as that is when the node starts.

`Dispatch.move?` is one move of one unit, and every order in which moves are possible is an order in
which the nodes may run. The moves are the atomic steps taken here. A unit does the parts of a move
one after the other, and no other unit moves in between: `Move.start` takes a permit and looks up
what the node needs, and `Move.settle` puts the render of the node in place, gives back the permit,
records the node as done, and schedules the children that may start now.

`Dispatch.run` takes one of these orders. It goes from wave to wave, a wave being the children that
one node has scheduled: all of a wave start, then they end, in their order.
-/

namespace PageRender

/-- How the run of a node ends. -/
inductive Ending
  | done
  | failed (fault : Fault)
  | crashed (panic : Panic)

/-- Where a unit stands. -/
inductive Phase (τ : Type)
  /-- Its node has not been scheduled. -/
  | idle
  /-- It waits for a permit. -/
  | queued
  /-- Its node is running, with what it has found at its start. -/
  | running (job : τ)
  /-- Its node is done, and it waits for the units of these nodes. -/
  | joining (children : List Nat)
  /-- It is over. -/
  | finished
  /-- It is over, by a panic that nobody has noticed yet. -/
  | crashed

namespace Phase

variable {τ : Type}

/-- Whether a unit waits for a permit. -/
def isQueued : Phase τ → Bool
  | queued => true
  | _ => false

/-- Whether a unit holds a permit. -/
def isRunning : Phase τ → Bool
  | running _ => true
  | _ => false

/-- Whether a unit has ended by a panic. -/
def isCrashed : Phase τ → Bool
  | crashed => true
  | _ => false

/-- Whether a unit is over. -/
def isOver : Phase τ → Bool
  | finished | crashed => true
  | _ => false

end Phase

/-- A move of the unit of a node. -/
inductive Move
  /-- Take a permit and begin to run. -/
  | start (node : Nat)
  /-- End the run of the node, and schedule its children. -/
  | settle (node : Nat)
  /-- End the waiting for the children. -/
  | join (node : Nat)
deriving DecidableEq

/-- A walk, where the unit of every node stands, and the world in which nodes run. -/
structure Dispatch (σ τ : Type) where
  walk : Walk
  phases : Array (Phase τ)
  world : σ

/-- What nodes are run in, and how. -/
structure Runner (σ τ : Type) where
  tree : RenderTree
  /-- How many nodes may run at the same time; any number if there is no bound. -/
  permits : Option Nat
  /-- Find what a node needs to run. -/
  start : Node → σ → Except Fault τ × σ
  /-- Run a node to its end. -/
  finish : Node → τ → σ → Ending × σ

/-- There cannot be more permits than this. -/
def mostPermits : Nat :=
  twoPow 61 - 1

/-- The panic of a runner that asks for too many permits. A tree without nodes needs none. -/
def Runner.overload? {σ τ : Type} (r : Runner σ τ) : Option Panic :=
  if r.tree.root?.isSome && r.permits.any (mostPermits < ·) then
    some ⟨some ("a semaphore may not have more than MAX_PERMITS permits (" ++
      natText mostPermits ++ ")")⟩
  else none

namespace Dispatch

variable {σ τ : Type}

/-- The fault of a unit that has crashed, noticed by whoever waits for it. -/
def crashFault (i : Nat) : Fault :=
  .internal ("render unit failed: node " ++ natText i ++ " panicked")

/-- The fault of a unit without a node. -/
def missingFault (i : Nat) : Fault :=
  .internal ("node " ++ natText i ++ " missing from graph")

/-- Where the unit of a node stands. -/
def phase? (d : Dispatch σ τ) (i : Nat) : Option (Phase τ) :=
  d.phases[i]?

/-- Move the unit of a node to a phase. -/
def setPhase (d : Dispatch σ τ) (i : Nat) (phase : Phase τ) : Dispatch σ τ :=
  { d with phases := d.phases.setIfInBounds i phase }

/-- Whether the unit of a node waits for a permit. -/
def isQueued (d : Dispatch σ τ) (i : Nat) : Bool :=
  (d.phase? i).any Phase.isQueued

/-- Whether a node runs. -/
def isRunning (d : Dispatch σ τ) (i : Nat) : Bool :=
  (d.phase? i).any Phase.isRunning

/-- The nodes that run. -/
def running (d : Dispatch σ τ) : List Nat :=
  d.walk.scheduled.filter d.isRunning

/-- Whether a permit is free. -/
def hasPermit (d : Dispatch σ τ) : Option Nat → Bool
  | none => true
  | some permits => d.running.length < permits

/-- Whether the unit of a node is over. -/
def isOver (d : Dispatch σ τ) (i : Nat) : Bool :=
  (d.phase? i).any Phase.isOver

/-- Record a fault. -/
def fail (d : Dispatch σ τ) (f : Fault) : Dispatch σ τ :=
  { d with walk := d.walk.fail f }

/-- Record the crashes of units. -/
def noticeCrashes (d : Dispatch σ τ) (nodes : List Nat) : Dispatch σ τ :=
  let crashed := nodes.filter fun i => (d.phase? i).any Phase.isCrashed
  crashed.foldl (fun d i => d.fail (crashFault i)) d

/-- Begin to run a node. One that lacks what it needs fails at once. -/
def launch (r : Runner σ τ) (d : Dispatch σ τ) (i : Nat) : Dispatch σ τ :=
  match r.tree.node? i with
  | none => (d.fail (missingFault i)).setPhase i .finished
  | some node =>
    let (found, world) := r.start node d.world
    let d := { d with world }
    match found with
    | .ok job => d.setPhase i (.running job)
    | .error f => (d.fail f).setPhase i .finished

/-- Record that a node is done, and schedule its children. -/
def complete (r : Runner σ τ) (d : Dispatch σ τ) (i : Nat) : Dispatch σ τ :=
  let (walk, next) := d.walk.complete r.tree i
  let d := { d with walk }.setPhase i (if next.isEmpty then .finished else .joining next)
  next.foldl (fun d child => d.setPhase child .queued) d

/-- End the run of a node. -/
def settle (r : Runner σ τ) (d : Dispatch σ τ) (i : Nat) (job : τ) : Dispatch σ τ :=
  match r.tree.node? i with
  | none => (d.fail (missingFault i)).setPhase i .finished
  | some node =>
    let (ending, world) := r.finish node job d.world
    let d := { d with world }
    match ending with
    | .done => d.complete r i
    | .failed f => (d.fail f).setPhase i .finished
    | .crashed _ => d.setPhase i .crashed

/-- One move, if it is possible. -/
def move? (r : Runner σ τ) (d : Dispatch σ τ) : Move → Option (Dispatch σ τ)
  | .start i =>
    match d.phase? i with
    | some .queued => if d.hasPermit r.permits then some (d.launch r i) else none
    | _ => none
  | .settle i =>
    match d.phase? i with
    | some (.running job) => some (d.settle r i job)
    | _ => none
  | .join i =>
    match d.phase? i with
    | some (.joining children) =>
      if children.all d.isOver then some ((d.noticeCrashes children).setPhase i .finished) else none
    | _ => none

/-- Before the first move: the root is scheduled. -/
def initial (r : Runner σ τ) (root : Nat) (world : σ) : Dispatch σ τ where
  walk := .start root
  phases := (Array.replicate r.tree.size .idle).setIfInBounds root .queued
  world := world

/-- What has come of the walk once the unit of the root is over. -/
def result (d : Dispatch σ τ) (root : Nat) : Except Fault (List Nat) :=
  (d.noticeCrashes [root]).walk.result

/-! ### One order of moves -/

/-- The nodes of the wave that runs, or else of the first wave that has units which are queued, less
those whose units are over. -/
def frontWave (r : Runner σ τ) (d : Dispatch σ τ) : List Nat :=
  let busy := d.walk.scheduled.filter fun i => d.isQueued i || d.isRunning i
  match d.running ++ busy with
  | [] => []
  | first :: _ => busy.filter fun i => r.tree.parent? i = r.tree.parent? first

/-- The moves that are tried, in order: to end a waiting; to start a unit of the front wave, if a
permit is free; to end the run of one. -/
def preferred (r : Runner σ τ) (d : Dispatch σ τ) : List Move :=
  let front := d.frontWave r
  d.walk.scheduled.map .join ++
    (if d.hasPermit r.permits then (front.filter d.isQueued).map .start else []) ++
    (front.filter d.isRunning).map .settle

/-- The state after the preferred one of the moves that are possible. -/
def next? (r : Runner σ τ) (d : Dispatch σ τ) : Option (Dispatch σ τ) :=
  (d.preferred r).findSome? (d.move? r)

/-- Move until no unit can, at most so many times. -/
def drain (r : Runner σ τ) : Nat → Dispatch σ τ → Dispatch σ τ
  | 0, d => d
  | moves + 1, d =>
    match d.next? r with
    | some d => drain r moves d
    | none => d

/-- Run the nodes of a tree. Every unit moves three times at most. -/
def run (r : Runner σ τ) (world : σ) : Except Fault (List Nat) × σ :=
  match r.tree.root? with
  | none => (.ok [], world)
  | some root =>
    let d := drain r (3 * r.tree.size) (initial r root world)
    (d.result root, d.world)

end Dispatch

end PageRender
