/-!
# Cutting and replacing

Texts cut at a separator, texts freed of a fixed start or end, and the replacement of every
occurrence of one text by another. All of them work on lists of characters.
-/

namespace PageRender

/-- Cut a text at its first separator; nothing if there is none. -/
def cutAt? (separator : Char) : List Char → Option (List Char × List Char)
  | [] => none
  | c :: cs =>
    if c = separator then some ([], cs)
    else (cutAt? separator cs).map fun (before, after) => (c :: before, after)

/-- The pieces between the separators of a text: one more than it has separators. -/
def piecesAt (separator : Char) : List Char → List (List Char)
  | [] => [[]]
  | c :: cs =>
    match piecesAt separator cs with
    | [] => [[c]]
    | piece :: pieces =>
      if c = separator then [] :: piece :: pieces else (c :: piece) :: pieces

/-- What follows `start`, if the text begins with it. -/
def after? (start cs : List Char) : Option (List Char) :=
  if start.isPrefixOf cs then some (cs.drop start.length) else none

/-- What stands before `ending`, if the text ends with it. -/
def before? (ending cs : List Char) : Option (List Char) :=
  if ending.isSuffixOf cs then some (cs.take (cs.length - ending.length)) else none

/-- Replace the occurrences of `needle` that begin after the next `skip` characters, which belong
to an occurrence already replaced. -/
def replaceFrom (needle replacement : List Char) : Nat → List Char → List Char
  | _, [] => []
  | skip + 1, _ :: cs => replaceFrom needle replacement skip cs
  | 0, c :: cs =>
    if needle ≠ [] ∧ needle.isPrefixOf (c :: cs) then
      replacement ++ replaceFrom needle replacement (needle.length - 1) cs
    else c :: replaceFrom needle replacement 0 cs

/-- Replace the occurrences of `needle`, from left to right and without overlap. An empty needle
occurs nowhere. -/
def replaceAll (needle replacement cs : List Char) : List Char :=
  replaceFrom needle replacement 0 cs

example : replaceAll "aa".toList "b".toList "aaaca".toList = "baca".toList := by decide

end PageRender
