import PageRender.Json.Basic
import PageRender.Json.Token

/-!
# Reading a tree

The tree of a list of tokens, built by a machine that takes one token at a time. Its state is the
stack of the arrays and objects that are open, innermost first, and what may come next. No nesting
is too deep for it.
-/

namespace PageRender

namespace Json

/-- A key that has been read; none if it holds half a surrogate pair. -/
abbrev Key := Option String

/-- An array or an object that is open, with what it holds so far, the last first. An object is
inside the member whose key comes last. -/
inductive Frame
  | array (before : List Json)
  | object (before : List (Key × Json)) (key : Key)

/-- What may come next. -/
inductive Phase
  /-- A value. -/
  | value
  /-- An item of the array just opened, or its end. -/
  | firstItem
  /-- A key of the object just opened, or its end. -/
  | firstKey
  /-- A key of an object that holds these members, the last first. -/
  | key (before : List (Key × Json))
  /-- The colon after a key. -/
  | colon (before : List (Key × Json)) (key : Key)
  /-- A comma or the end of the innermost array or object, after a value. -/
  | ended (value : Json)

/-- The state of the reader. -/
structure Reader where
  stack : List Frame
  phase : Phase

/-- An object of members given last first. It is unreadable as a whole if one of its keys is. -/
def ofMembers (members : List (Key × Json)) : Json :=
  match members.reverse.mapM fun (key, item) => key.map (·, item) with
  | some members => .object members
  | none => .unreadable

/-- The leaf that a token stands for. -/
def leaf? : Token → Option Json
  | .null => some .null
  | .bool b => some (.bool b)
  | .number literal => some ((literal.number?.map .number).getD .unreadable)
  | .string value => some ((value.map .string).getD .unreadable)
  | _ => none

namespace Reader

/-- Before the first token. -/
def start : Reader := ⟨[], .value⟩

/-- Read the beginning of a value. -/
def readValue? (stack : List Frame) (token : Token) : Option Reader :=
  match token with
  | .openArray => some ⟨stack, .firstItem⟩
  | .openObject => some ⟨stack, .firstKey⟩
  | _ => (leaf? token).map fun value => ⟨stack, .ended value⟩

/-- Read one token. -/
def read? (r : Reader) (token : Token) : Option Reader :=
  match r.phase, token with
  | .value, _ => readValue? r.stack token
  | .firstItem, .closeArray => some ⟨r.stack, .ended (.array [])⟩
  | .firstItem, _ => readValue? (.array [] :: r.stack) token
  | .firstKey, .closeObject => some ⟨r.stack, .ended (.object [])⟩
  | .firstKey, .string key => some ⟨r.stack, .colon [] key⟩
  | .key before, .string key => some ⟨r.stack, .colon before key⟩
  | .colon before key, .colon => some ⟨.object before key :: r.stack, .value⟩
  | .ended value, _ =>
    match r.stack, token with
    | .array before :: stack, .comma => some ⟨.array (value :: before) :: stack, .value⟩
    | .array before :: stack, .closeArray =>
      some ⟨stack, .ended (.array (value :: before).reverse)⟩
    | .object before key :: stack, .comma => some ⟨stack, .key ((key, value) :: before)⟩
    | .object before key :: stack, .closeObject =>
      some ⟨stack, .ended (ofMembers ((key, value) :: before))⟩
    | _, _ => none
  | _, _ => none

/-- The tree that has been read, if the text may end here. -/
def result? (r : Reader) : Option Json :=
  match r.stack, r.phase with
  | [], .ended value => some value
  | _, _ => none

end Reader

/-- The tree of a list of tokens. -/
def ofTokens? (tokens : List Token) : Option Json :=
  (tokens.foldlM Reader.read? Reader.start).bind Reader.result?

/-- The tree of a text: one value with white space around its tokens, and nothing else. -/
def parse? (text : String) : Option Json :=
  (Token.scan? text.toList).bind ofTokens?

end Json

end PageRender
