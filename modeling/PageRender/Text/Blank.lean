/-!
# Blank characters

The characters that count as white space around the parts of a binding, and trimming by them.

The class is the `White_Space` property of the Unicode character database. It holds the no-break
space and the wide spaces of typography; it does not hold the zero-width marks (`U+200B`,
`U+FEFF`), which have no property of that kind.
-/

namespace PageRender

/-- The code points with the property `White_Space`, as closed ranges. -/
def blankRanges : List (Nat × Nat) :=
  [(0x0009, 0x000D), (0x0020, 0x0020), (0x0085, 0x0085), (0x00A0, 0x00A0), (0x1680, 0x1680),
    (0x2000, 0x200A), (0x2028, 0x2029), (0x202F, 0x202F), (0x205F, 0x205F), (0x3000, 0x3000)]

/-- A character is blank if one of the ranges holds its code point. -/
def isBlank (c : Char) : Bool :=
  blankRanges.any fun (first, last) => first ≤ c.toNat && c.toNat ≤ last

/-- Drop the blanks at the end. -/
def trimBlankRight (cs : List Char) : List Char :=
  (cs.reverse.dropWhile isBlank).reverse

/-- Drop the blanks at both ends. -/
def trimBlank (cs : List Char) : List Char :=
  trimBlankRight (cs.dropWhile isBlank)

example : trimBlank "\u00a0\t a b\u3000".toList = "a b".toList := by decide

example : trimBlank "\u200ba".toList = "\u200ba".toList := by decide

end PageRender
