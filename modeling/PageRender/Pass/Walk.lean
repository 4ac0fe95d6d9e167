import PageRender.RenderTree.Basic

/-!
# Walks

The bookkeeping of a walk through a render tree: which nodes have been scheduled, which are done,
and the first fault. A node that is done schedules those of its children that may start, unless the
walk has a fault, after which nothing new is scheduled.
-/

namespace PageRender

/-- How far a walk has come. -/
structure Walk where
  /-- The nodes that have been scheduled. -/
  scheduled : List Nat
  /-- The nodes that are done, in the order of their completion. -/
  completed : List Nat := []
  /-- The first fault. -/
  fault : Option Fault := none

namespace Walk

/-- A walk begins with the root alone. -/
def start (root : Nat) : Walk where
  scheduled := [root]

/-- Record a fault, unless there is one. -/
def fail (w : Walk) (f : Fault) : Walk :=
  { w with fault := w.fault <|> some f }

/-- Record that a node is done, and schedule the children that may start. -/
def complete (w : Walk) (t : RenderTree) (i : Nat) : Walk × List Nat :=
  let w := { w with completed := w.completed ++ [i] }
  match w.fault with
  | some _ => (w, [])
  | none =>
    let next := t.renderable i w.completed w.scheduled
    ({ w with scheduled := w.scheduled ++ next }, next)

/-- What a walk has come to: its first fault, else the nodes in the order of their completion. -/
def result (w : Walk) : Except Fault (List Nat) :=
  match w.fault with
  | some f => .error f
  | none => .ok w.completed

end Walk

end PageRender
