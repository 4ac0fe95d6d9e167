import PageRender.Json.Basic

/-!
# Looking into trees

Lenient access to the parts of a tree: what is missing or of another kind reads as empty.
-/

namespace PageRender

namespace Json

/-- The text that a tree is, or the empty one. -/
def asText : Json → String
  | .string s => s
  | _ => ""

/-- The natural number that a tree is, or zero. -/
def asNat : Json → Nat
  | .number n => n.nat?.getD 0
  | _ => 0

/-- The truth value that a tree is, or false. -/
def asBool : Json → Bool
  | .bool b => b
  | _ => false

/-- The items of a tree that is an array, or none. -/
def asItems : Json → List Json
  | .array items => items
  | _ => []

/-- The members of a tree that is an object, or none. -/
def asMembers : Json → List (String × Json)
  | .object members => members
  | _ => []

/-- The item of a member. Of members with one key the last counts. -/
def member? (j : Json) (key : String) : Option Json :=
  j.asMembers.reverse.lookup key

/-- The text of a member, if it is one. -/
def text? (j : Json) (key : String) : Option String :=
  match j.member? key with
  | some (.string s) => some s
  | _ => none

/-- The natural number of a member, if it is one. -/
def nat? (j : Json) (key : String) : Option Nat :=
  match j.member? key with
  | some (.number n) => n.nat?
  | _ => none

/-- The item of a member, null if it is missing. -/
def child (j : Json) (key : String) : Json :=
  (j.member? key).getD .null

end Json

end PageRender
