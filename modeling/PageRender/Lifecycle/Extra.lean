import PageRender.Json.Value

/-!
# Extra entries

A container may hold an object of extra entries. Flattening moves them up into the container.
-/

namespace PageRender

namespace Fields

/-- The key of the object of extra entries. -/
def extraKey : String := "extra"

/-- Append the members whose keys are not there yet, and count them. -/
def appendNew (fields : Fields) : List (String × Value) → Fields × Nat
  | [] => (fields, 0)
  | (key, value) :: rest =>
    if fields.contains key then appendNew fields rest
    else
      let (fields, moved) := appendNew (fields.insert key value) rest
      (fields, moved + 1)

/-- Move the extra entries up, in the order of their keys, and count those moved. An entry whose key
is there already is lost. Extra entries that are no object stay as they are. -/
def flattenExtra (fields : Fields) : Fields × Nat :=
  match (fields.get? extraKey).bind Value.members? with
  | some members => appendNew (fields.erase extraKey) members
  | none => (fields, 0)

end Fields

end PageRender
