import PageRender.Json.Embedded

/-!
# Decoding trees

A decoder finds the typed value that a tree stands for, if it stands for one. It is given the number
of levels of arrays and objects that may still open, since documents may nest only so deep. What a
decoder does not ask for may nest without limit and may be unreadable.

A record may be written as an object or as an array of its fields. In an object, members that name
no field are ignored, and a field may be named once. In an array the fields come in their order,
from the first one on.
-/

namespace PageRender

variable {α β : Type}

/-- A decoder for documents that may still open that many levels. -/
abbrev Decoder (α : Type) := Nat → Json → Option α

namespace Decode

/-- A truth value. -/
def bool : Decoder Bool
  | _, .bool b => some b
  | _, _ => none

/-- A text. -/
def string : Decoder String
  | _, .string s => some s
  | _, _ => none

/-- A natural number of at most 64 bits, written as an integer. -/
def nat : Decoder Nat
  | _, .number n => n.nat?
  | _, _ => none

/-- Any readable value. -/
def value : Decoder Value := Value.ofJson? Value.ofText?

/-- Something that may be absent, which is written `null`. -/
def nullable (decode : Decoder α) : Decoder (Option α)
  | _, .null => some none
  | depth, j => (decode depth j).map some

/-- An array. -/
def list (decode : Decoder α) : Decoder (List α)
  | depth + 1, .array items => items.mapM (decode depth)
  | _, _ => none

/-- A member of an object whose keys are free. -/
def member (decode : Decoder α) (depth : Nat) (m : String × Json) : Option (String × α) :=
  (decode depth m.2).map fun item => (m.1, item)

/-- An object whose keys are free. A repeated key keeps its first place and its last value. -/
def dict (decode : Decoder α) : Decoder (Dict α)
  | depth + 1, .object members => (members.mapM (member decode depth)).map Dict.ofList
  | _, _ => none

/-- Values by key. -/
def fields : Decoder Fields := dict value

/-! ### Records -/

/-- The members that name one of the fields; nothing if a field is named twice. -/
def named? (names : List String) : List (String × Json) → Option (List (String × Json))
  | [] => some []
  | (key, item) :: rest => do
    let others ← named? names rest
    if key ∈ names then
      if key ∈ others.map Prod.fst then none else some ((key, item) :: others)
    else some others

/-- The fields that a record gives, by name. -/
def slots? (names : List String) : Json → Option (List (String × Json))
  | .object members => named? names members
  | .array items => if items.length ≤ names.length then some (names.zip items) else none
  | _ => none

/-- A record with the given fields, decoded from those that are there. -/
def record (names : List String) (decode : Nat → List (String × Json) → Option α) : Decoder α
  | depth + 1, j => (slots? names j).bind (decode depth)
  | 0, _ => none

/-- A field that must be there. -/
def required (depth : Nat) (slots : List (String × Json)) (name : String) (decode : Decoder α) :
    Option α :=
  (slots.lookup name).bind (decode depth)

/-- A field with a value that stands for its absence. -/
def optional (depth : Nat) (slots : List (String × Json)) (name : String) (absent : α)
    (decode : Decoder α) : Option α :=
  match slots.lookup name with
  | none => some absent
  | some j => decode depth j

/-! ### Documents -/

/-- Decode a tree that is a document by itself. -/
def document? (decode : Decoder α) (j : Json) : Option α :=
  decode Json.depthLimit j

/-- Decode a text that is a document. -/
def text? (decode : Decoder α) (text : String) : Option α :=
  (Json.parse? text).bind (document? decode)

end Decode

namespace Encode

/-- An array. -/
def list (encode : α → Json) (items : List α) : Json :=
  .array (items.map encode)

/-- An object whose keys are free, in their order. -/
def dict (encode : α → Json) (d : Dict α) : Json :=
  .object (d.entries.map fun (key, item) => (key, encode item))

/-- A member that is there in any case. -/
def field (name : String) (j : Json) : List (String × Json) :=
  [(name, j)]

/-- A member that is left out when it is absent. -/
def present (name : String) (encode : α → Json) : Option α → List (String × Json)
  | none => []
  | some a => [(name, encode a)]

/-- A text that is left out when it is empty. -/
def nonempty (name : String) (s : String) : List (String × Json) :=
  if s.isEmpty then [] else [(name, .string s)]

/-- Something that may be absent, written `null`. -/
def nullable (encode : α → Json) : Option α → Json
  | none => .null
  | some a => encode a

/-- A natural number. One that exceeds 64 bits has no text. -/
def nat (n : Nat) : Json :=
  ((Number.ofInt? n).map .number).getD .unreadable

end Encode

end PageRender
