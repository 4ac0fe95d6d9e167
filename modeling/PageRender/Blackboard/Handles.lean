import PageRender.Blackboard.Basic

/-!
# Handles

Several names for blackboards. A handle names a board; a second handle may name the same board, and
then a change through one is seen through the other, or a copy of it, and then it is not.
-/

namespace PageRender

/-- Boards by number, and handles that name them. -/
structure Handles where
  boards : List Blackboard
  names : Dict Nat

namespace Handles

/-- One handle to one board. -/
def single (name : String) (board : Blackboard) : Handles :=
  ⟨[board], Dict.empty.insert name 0⟩

/-- The number of the board that a handle names. -/
def number? (h : Handles) (name : String) : Option Nat :=
  h.names.get? name

/-- The board that a handle names. -/
def board? (h : Handles) (name : String) : Option Blackboard :=
  (h.number? name).bind (h.boards[·]?)

/-- Change the board that a handle names. -/
def modify (h : Handles) (name : String) (f : Blackboard → Blackboard) : Handles :=
  match h.number? name with
  | some n => { h with boards := h.boards.modify n f }
  | none => h

/-- A new handle to the board of another. -/
def share (h : Handles) (name newName : String) : Handles :=
  match h.number? name with
  | some n => { h with names := h.names.insert newName n }
  | none => h

/-- A new handle to a copy of the board of another. -/
def detach (h : Handles) (name newName : String) : Handles :=
  match h.board? name with
  | some board => ⟨h.boards ++ [board], h.names.insert newName h.boards.length⟩
  | none => h

/-- Whether two handles name one board. -/
def shared (h : Handles) (a b : String) : Bool :=
  match h.number? a, h.number? b with
  | some m, some n => m == n
  | _, _ => false

end Handles

end PageRender
