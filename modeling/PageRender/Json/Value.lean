import PageRender.Dict
import PageRender.Json.Normal
import PageRender.Json.Writer

/-!
# Values

What components, events and parameters hold under their keys: normal trees. The members of a
value's objects are ordered by their keys, whatever the order of the text it came from.
-/

namespace PageRender

/-- A normal tree. -/
structure Value where
  json : Json
  normal : json.isNormal = true

/-- Values by key, in the order in which the keys came. -/
abbrev Fields := Dict Value

namespace Value

/-! ### Making values -/

/-- The value that stands for nothing. -/
def null : Value := ⟨.null, rfl⟩

/-- A truth value. -/
def ofBool (b : Bool) : Value := ⟨.bool b, rfl⟩

/-- A number. -/
def ofNumber (n : Number) : Value := ⟨.number n, rfl⟩

/-- A text. -/
def ofString (s : String) : Value := ⟨.string s, rfl⟩

theorem normalItems_map (items : List Value) : Json.normalItems (items.map json) = true := by
  induction items with
  | nil => rfl
  | cons item rest ih => simp [Json.normalItems, item.normal, ih]

/-- An array of values. -/
def ofList (items : List Value) : Value :=
  ⟨.array (items.map json), normalItems_map items⟩

/-- Write members to an ordered object, one after the other. -/
def putMembers (ordered : List (String × Json)) : List (String × Value) → List (String × Json)
  | [] => ordered
  | (key, value) :: rest => putMembers (Json.putMember key value.json ordered) rest

theorem normalMembers_putMembers {ordered : List (String × Json)}
    (h : Json.normalMembers ordered = true) (members : List (String × Value)) :
    Json.normalMembers (putMembers ordered members) = true := by
  induction members generalizing ordered with
  | nil => exact h
  | cons member rest ih => exact ih (Json.normalMembers_putMember member.2.normal h)

/-- An object of values. Of members with one key the last is kept. -/
def ofMembers (members : List (String × Value)) : Value :=
  ⟨.object (putMembers [] members), normalMembers_putMembers rfl members⟩

instance : Inhabited Value := ⟨null⟩

/-! ### Looking into values -/

/-- The truth value that a value is. -/
def bool? (v : Value) : Option Bool :=
  match v.json with
  | .bool b => some b
  | _ => none

/-- The text that a value is. -/
def string? (v : Value) : Option String :=
  match v.json with
  | .string s => some s
  | _ => none

/-- The integer that a value is, if it fits a signed word. -/
def int64? (v : Value) : Option Int :=
  match v.json with
  | .number n => n.int64?
  | _ => none

/-- The parts of a tree are normal if the tree is. -/
def attachItems : (items : List Json) → Json.normalItems items = true → List Value
  | [], _ => []
  | item :: rest, h =>
    have h : item.isNormal = true ∧ Json.normalItems rest = true := by
      simpa [Json.normalItems] using h
    ⟨item, h.1⟩ :: attachItems rest h.2

/-- The items of a value that is an array. -/
def items? (v : Value) : Option (List Value) :=
  match v with
  | ⟨.array items, h⟩ => some (attachItems items (by simpa [Json.isNormal] using h))
  | _ => none

/-- The members of a tree are normal if the tree is. -/
def attachMembers :
    (members : List (String × Json)) → Json.normalMembers members = true → List (String × Value)
  | [], _ => []
  | (key, item) :: rest, h =>
    have h : item.isNormal = true ∧ Json.normalMembers rest = true := by
      simp only [Json.normalMembers, Bool.and_eq_true] at h
      exact h.1
    (key, ⟨item, h.1⟩) :: attachMembers rest h.2

/-- The members of a value that is an object, in the order of their keys. -/
def members? (v : Value) : Option (List (String × Value)) :=
  match v with
  | ⟨.object members, h⟩ => some (attachMembers members (by simpa [Json.isNormal] using h))
  | _ => none

/-! ### Comparing and writing -/

/-- Two values are the same. -/
def same (v w : Value) : Bool :=
  v.json.same w.json

/-- The compact text of a value. -/
def text (v : Value) : String :=
  v.json.compact

end Value

namespace Fields

/-- The same keys with the same values, in any order. -/
def same (a b : Fields) : Bool :=
  Dict.sameBy Value.same a b

/-- The object that holds the fields in their order. -/
def encode (fields : Fields) : Json :=
  .object (fields.entries.map fun (key, value) => (key, value.json))

end Fields

end PageRender
