import PageRender.Plan

/-!
# Render trees

Which render of a pass waits for which. Every planned step is a node, known by its number, and waits
for at most one other node, its parent; the nodes that wait for one are its children, in the order
in which they will start.

At first every node waits for the one planned before it. A parallel group then moves its children
under its component, so that they wait for that component only and not for each other.
-/

namespace PageRender

/-- A planned step in the tree. -/
structure Node where
  step : Step
  /-- The node that this one waits for. -/
  parent : Option Nat
  /-- The nodes that wait for this one. -/
  children : List Nat
  /-- Whether a parallel group has put the node where it is. -/
  parallel : Bool

/-- The component that a node renders. -/
def Node.name (n : Node) : String :=
  n.step.name

/-- Who waits for whom, by the names of the components. -/
structure Edge where
  parent : String
  child : String
  parallel : Bool
deriving DecidableEq

/-- An edge as a line. -/
def Edge.line (e : Edge) : String :=
  e.parent ++ (if e.parallel then " => " else " -> ") ++ e.child

/-- The document of an edge. -/
def Edge.encode (e : Edge) : Json :=
  .object [("from", .string e.parent), ("to", .string e.child), ("parallel", .bool e.parallel)]

/-- Why a node cannot be moved under another. -/
inductive TreeFault
  /-- There is no such node. -/
  | outOfRange (parent child size : Nat)
  /-- The node is the other one, or above it. -/
  | upstream (parent child : String)
deriving DecidableEq

/-- The fault in words. -/
def TreeFault.reason : TreeFault → String
  | outOfRange parent child size =>
    "cannot attach node " ++ natText child ++ " under " ++ natText parent ++ ": graph has " ++
      natText size ++ " nodes"
  | upstream parent child =>
    "'" ++ child ++ "' cannot render after '" ++ parent ++ "': it is already upstream of it"

/-- The fault as one of the page. -/
def TreeFault.fault (f : TreeFault) : Fault :=
  .invalidTree f.reason

/-- The nodes of a pass by number. -/
structure RenderTree where
  nodes : Array Node

namespace RenderTree

/-- The number of nodes. -/
def size (t : RenderTree) : Nat :=
  t.nodes.size

/-- The node of a number. -/
def node? (t : RenderTree) (i : Nat) : Option Node :=
  t.nodes[i]?

/-- The node that a node waits for. -/
def parent? (t : RenderTree) (i : Nat) : Option Nat :=
  (t.node? i).bind Node.parent

/-- The nodes that wait for a node. -/
def children (t : RenderTree) (i : Nat) : List Nat :=
  match t.node? i with
  | some n => n.children
  | none => []

/-- The component of a node. -/
def nameOf (t : RenderTree) (i : Nat) : String :=
  match t.node? i with
  | some n => n.name
  | none => ""

/-- The node of a component: the last one, should several nodes render it. -/
def indexOf? (t : RenderTree) (name : String) : Option Nat :=
  let others := (t.nodes.reverse.findIdx? fun n => n.name = name)
  others.map fun i => t.size - 1 - i

/-- The first node that waits for none. -/
def root? (t : RenderTree) : Option Nat :=
  t.nodes.findIdx? fun n => n.parent.isNone

/-- Whether `ancestor` is met on the way up from a node that is `start` steps above, within a number
of steps. -/
def climbs (t : RenderTree) (ancestor : Nat) : Nat → Option Nat → Bool
  | _, none => false
  | 0, some _ => false
  | steps + 1, some i => i = ancestor || climbs t ancestor steps (t.parent? i)

/-- Whether a node is above another. The way up is shorter than the tree is large. -/
def isAncestor (t : RenderTree) (ancestor i : Nat) : Bool :=
  t.climbs ancestor t.size (t.parent? i)

/-- Change the node of a number. -/
def modify (t : RenderTree) (i : Nat) (f : Node → Node) : RenderTree :=
  ⟨t.nodes.modify i f⟩

/-- Take a node away from the children of another. -/
def detach (t : RenderTree) (child : Nat) : Option Nat → RenderTree
  | none => t
  | some parent => t.modify parent fun n => { n with children := n.children.filter (· ≠ child) }

/-- Move a node, with all that is below it, under another, as its last child. The tree is the one
after the call, whether or not the move was possible. -/
def attach (t : RenderTree) (parent child : Nat) : Except TreeFault Unit × RenderTree :=
  if t.size ≤ parent ∨ t.size ≤ child then (.error (.outOfRange parent child t.size), t)
  else if parent = child ∨ t.isAncestor child parent then
    (.error (.upstream (t.nameOf parent) (t.nameOf child)), t)
  else
    let t := t.detach child (t.parent? child)
    let t := t.modify child fun n => { n with parent := some parent, parallel := true }
    (.ok (), t.modify parent fun n => { n with children := n.children ++ [child] })

/-- The tree in which every step waits for the one before it. -/
def serial (steps : List Step) : RenderTree :=
  ⟨(steps.mapIdx fun i step => {
    step
    parent := if i = 0 then none else some (i - 1)
    children := if i + 1 < steps.length then [i + 1] else []
    parallel := false }).toArray⟩

/-- Move nodes under another, one after the other. A move that is not possible ends this, and the
tree is dropped. -/
def attachAll (t : RenderTree) (parent : Nat) (children : List Nat) :
    Except TreeFault RenderTree :=
  children.foldlM (fun t child => kept (t.attach parent child)) t

/-- Move the children of a parallel group under its component. A component that is not planned, on
either side, is passed over, and so is a child that the group names again. -/
def attachGroup (t : RenderTree) (group : String × List String) : Except TreeFault RenderTree :=
  match t.indexOf? group.1 with
  | none => .ok t
  | some parent => t.attachAll parent (group.2.filterMap t.indexOf?).eraseDups

/-- The tree of planned steps under the parallel groups of a page. -/
def build (steps : List Step) (parallel : Dict (List String)) : Except TreeFault RenderTree :=
  parallel.entries.foldlM attachGroup (serial steps)

/-- The children of a node that may start: those whose parent is done and that have not been
scheduled. -/
def renderable (t : RenderTree) (i : Nat) (done scheduled : List Nat) : List Nat :=
  (t.children i).filter fun child =>
    !scheduled.contains child &&
      match t.parent? child with
      | some parent => done.contains parent
      | none => true

/-- Whether every node of a list stands after the one that it waits for. -/
def isParentsFirst (t : RenderTree) (nodes : List Nat) : Bool :=
  nodes.all fun i => (t.parent? i).all fun parent => (nodes.takeWhile (· ≠ i)).contains parent

/-- The edges, in the order of the nodes that wait. -/
def edges (t : RenderTree) : List Edge :=
  t.nodes.toList.filterMap fun n => n.parent.map fun parent =>
    { parent := t.nameOf parent, child := n.name, parallel := n.parallel }

/-- The edges as lines. -/
def describe (t : RenderTree) : List String :=
  t.edges.map Edge.line

/-- Whether some node has several children. -/
def isBranching (t : RenderTree) : Bool :=
  t.nodes.any fun n => 1 < n.children.length

end RenderTree

end PageRender
