import PageRender.Number.Basic

/-!
# JSON trees

The tree of a JSON text. An object keeps its members in the order of the text, repeated keys
included; what becomes of a repeated key is decided by whoever reads the tree.

A part of a text may be well-formed and yet denote nothing: a number too large for a double, a
string or a key with half a surrogate pair. Such a part is a leaf of its own, `unreadable`, which
is harmless as long as nobody asks for its value.
-/

namespace PageRender

/-- The tree of a JSON text. -/
inductive Json
  | null
  | bool (value : Bool)
  | number (value : Number)
  | string (value : String)
  | array (items : List Json)
  | object (members : List (String × Json))
  | unreadable

namespace Json

instance : Inhabited Json := ⟨null⟩

/-! ### Same values

Signed zeros are equal and nothing unreadable is equal to anything. -/

mutual

/-- Two trees denote the same value, their members being in the same order. -/
def same : Json → Json → Bool
  | .null, .null => true
  | .bool a, .bool b => a == b
  | .number m, .number n => m.same n
  | .string s, .string t => s == t
  | .array xs, .array ys => sameItems xs ys
  | .object ms, .object ns => sameMembers ms ns
  | _, _ => false

/-- The items of two arrays are pairwise the same. -/
def sameItems : List Json → List Json → Bool
  | [], [] => true
  | x :: xs, y :: ys => x.same y && sameItems xs ys
  | _, _ => false

/-- The members of two objects are pairwise the same. -/
def sameMembers : List (String × Json) → List (String × Json) → Bool
  | [], [] => true
  | (k, x) :: ms, (l, y) :: ns => k == l && x.same y && sameMembers ms ns
  | _, _ => false

end

/-! ### Depth -/

/-- A document may nest arrays and objects this deep. -/
def depthLimit : Nat := 127

end Json

end PageRender
