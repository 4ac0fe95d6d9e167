import PageRender.Json.Basic

/-!
# Writing a tree

Two texts for a tree: the compact one, without white space, and the pretty one, with each item and
each member on a line of its own. An unreadable part, which no written document has, is written as
`null`.
-/

namespace PageRender

namespace Json

/-- A hexadecimal digit, in lower case. -/
def hexChar (n : Nat) : Char :=
  if n < 10 then Char.ofNat (n + '0'.toNat) else Char.ofNat (n - 10 + 'a'.toNat)

/-- A character inside a string. The quote, the backslash and the control characters are escaped,
by a letter where there is one; all others stand for themselves. -/
def escape (c : Char) : List Char :=
  match c with
  | '"' => ['\\', '"']
  | '\\' => ['\\', '\\']
  | '\x08' => ['\\', 'b']
  | '\x0c' => ['\\', 'f']
  | '\n' => ['\\', 'n']
  | '\r' => ['\\', 'r']
  | '\t' => ['\\', 't']
  | c =>
    if c.toNat < 0x20 then
      ['\\', 'u', '0', '0', hexChar (c.toNat / 16), hexChar (c.toNat % 16)]
    else [c]

/-- A string in quotes. -/
def quoted (s : String) : List Char :=
  '"' :: s.toList.flatMap escape ++ ['"']

/-- The two truth values. -/
def boolText (b : Bool) : List Char :=
  if b then "true".toList else "false".toList

/-! ### The compact text -/

mutual

/-- The compact text of a tree. -/
def compactChars : Json → List Char
  | .null => "null".toList
  | .bool b => boolText b
  | .number n => n.text
  | .string s => quoted s
  | .array items => '[' :: compactItems items ++ [']']
  | .object members => '{' :: compactMembers members ++ ['}']
  | .unreadable => "null".toList

/-- Items with commas between them. -/
def compactItems : List Json → List Char
  | [] => []
  | [item] => item.compactChars
  | item :: rest => item.compactChars ++ ',' :: compactItems rest

/-- Members with commas between them. -/
def compactMembers : List (String × Json) → List Char
  | [] => []
  | [(key, item)] => quoted key ++ ':' :: item.compactChars
  | (key, item) :: rest => quoted key ++ ':' :: item.compactChars ++ ',' :: compactMembers rest

end

/-- The compact text of a tree. -/
def compact (j : Json) : String :=
  String.ofList j.compactChars

/-! ### The pretty text -/

/-- A new line, indented by two blanks for every level. -/
def newline (level : Nat) : List Char :=
  '\n' :: List.replicate (2 * level) ' '

mutual

/-- The pretty text of a tree that stands at a level of nesting. -/
def prettyChars (level : Nat) : Json → List Char
  | .array [] => ['[', ']']
  | .array items => '[' :: prettyItems (level + 1) items ++ newline level ++ [']']
  | .object [] => ['{', '}']
  | .object members => '{' :: prettyMembers (level + 1) members ++ newline level ++ ['}']
  | .null => "null".toList
  | .bool b => boolText b
  | .number n => n.text
  | .string s => quoted s
  | .unreadable => "null".toList

/-- Items on a line each. -/
def prettyItems (level : Nat) : List Json → List Char
  | [] => []
  | [item] => newline level ++ item.prettyChars level
  | item :: rest => newline level ++ item.prettyChars level ++ ',' :: prettyItems level rest

/-- Members on a line each. -/
def prettyMembers (level : Nat) : List (String × Json) → List Char
  | [] => []
  | [(key, item)] => newline level ++ quoted key ++ ':' :: ' ' :: item.prettyChars level
  | (key, item) :: rest =>
    newline level ++ quoted key ++ ':' :: ' ' :: item.prettyChars level ++
      ',' :: prettyMembers level rest

end

/-- The pretty text of a tree. -/
def pretty (j : Json) : String :=
  String.ofList (j.prettyChars 0)

end Json

end PageRender
