import PageRender.Json.Reader
import PageRender.Json.Value

/-!
# Values of trees

The value that a readable tree denotes: of members with one key the last is kept, and members are
put in the order of their keys.

A value may also be embedded as a text. An object that begins with the key `embedKey` denotes the
value of the document that this member holds as a text, and has no other member. The document may
nest as deep as any other, and may embed texts itself.
-/

namespace PageRender

namespace Value

/-- The first key of an object that denotes the value of a text. -/
def embedKey : String :=
  "$serde_json::private::RawValue"

/-- Whether an object of these members denotes the value of a text. -/
def isEmbedding (members : List (String × Json)) : Bool :=
  members.head?.any fun member => member.1 = embedKey

/-- The text of an embedding, which is its only member. -/
def embeddedText? : List (String × Json) → Option String
  | [(_, .string text)] => some text
  | _ => none

mutual

/-- The value of a tree that nests arrays and objects at most `depth` deep, given the values of
embedded texts. -/
def ofJson? (embedded : String → Option Value) (depth : Nat) : Json → Option Value
  | .null => some null
  | .bool b => some (ofBool b)
  | .number n => some (ofNumber n)
  | .string s => some (ofString s)
  | .array items =>
    match depth with
    | 0 => none
    | depth + 1 => (itemValues? embedded depth items).map ofList
  | .object members =>
    match depth with
    | 0 => none
    | depth + 1 =>
      if isEmbedding members then (embeddedText? members).bind embedded
      else (memberValues? embedded depth members).map ofMembers
  | .unreadable => none

/-- The values of the items of an array. -/
def itemValues? (embedded : String → Option Value) (depth : Nat) : List Json → Option (List Value)
  | [] => some []
  | item :: rest => do
    let value ← ofJson? embedded depth item
    let others ← itemValues? embedded depth rest
    some (value :: others)

/-- The values of the members of an object. -/
def memberValues? (embedded : String → Option Value) (depth : Nat) :
    List (String × Json) → Option (List (String × Value))
  | [] => some []
  | (key, item) :: rest => do
    let value ← ofJson? embedded depth item
    let others ← memberValues? embedded depth rest
    some ((key, value) :: others)

end

/-- The value of a text in which texts are embedded fewer than `levels` deep. -/
def ofTextWithin? : Nat → String → Option Value
  | 0, _ => none
  | levels + 1, text =>
    (Json.parse? text).bind (ofJson? (ofTextWithin? levels) Json.depthLimit)

/-- The value of a text. A text is longer than any text embedded in it. -/
def ofText? (text : String) : Option Value :=
  ofTextWithin? (text.length + 1) text

end Value

end PageRender
