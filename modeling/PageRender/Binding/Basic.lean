import PageRender.Page.Basic
import PageRender.Text.Blank

/-!
# Bindings

A binding fills a key of a component's state before it renders. It is written as two segments in
double braces: a source, which is the caller's parameters or another component, and a key of it,
with a point between them. Blanks may surround every part.
-/

namespace PageRender

/-- Where the value of a binding comes from. -/
inductive Source
  /-- The parameters of the caller. -/
  | params
  /-- The state of a component. -/
  | component (name : String)
deriving DecidableEq

/-- A binding that has been understood. -/
structure Binding where
  /-- The key of the state that is filled. -/
  target : String
  source : Source
  /-- The key that is read. -/
  key : String
  /-- What was written. -/
  expression : String
deriving DecidableEq

/-- What is wrong with the text of a binding. -/
inductive BindingFault
  /-- It does not begin and end with double braces. -/
  | missingDelimiter
  /-- There is a brace inside. -/
  | extraDelimiter
  /-- There are not two segments. -/
  | segmentCount (count : Nat)
  /-- A segment is empty or has a blank inside. -/
  | malformedSegment
  /-- The key to be filled is blank. -/
  | emptyTarget
deriving DecidableEq

/-- What is wrong, in words. -/
def BindingFault.reason : BindingFault → String
  | missingDelimiter => "missing `\x7b\x7b` or `\x7d\x7d` delimiter"
  | extraDelimiter => "unexpected extra delimiter"
  | segmentCount count =>
    "expected `source.key`, found " ++ natText count ++ " segment(s)"
  | malformedSegment => "empty or malformed segment"
  | emptyTarget => "empty target key"

namespace Binding

/-- The source segment that stands for the caller's parameters. -/
def paramsWord : String := "inParams"

/-- The braces before the segments. -/
def opening : List Char := ['{', '{']

/-- The braces after the segments. -/
def closing : List Char := ['}', '}']

/-- What stands between the double braces of an expression. -/
def inner? (expression : List Char) : Option (List Char) :=
  (after? opening (trimBlank expression)).bind (before? closing)

/-- The source that a segment names. -/
def sourceOf (segment : List Char) : Source :=
  let name := String.ofList segment
  if name = paramsWord then .params else .component name

/-- A segment is well-formed if it has a character and no blank. -/
def isSegment (segment : List Char) : Bool :=
  !segment.isEmpty && !segment.any isBlank

/-- Understand a binding. Of several things that are wrong the first is reported, in the order of
the causes. -/
def parse (target expression : String) : Except BindingFault Binding :=
  match inner? expression.toList with
  | none => .error .missingDelimiter
  | some inner =>
    if inner.any (fun c => c = '{' || c = '}') then .error .extraDelimiter
    else
      match (piecesAt '.' (trimBlank inner)).map trimBlank with
      | [source, key] =>
        if !(isSegment source && isSegment key) then .error .malformedSegment
        else if (trimBlank target.toList).isEmpty then .error .emptyTarget
        else .ok ⟨target, sourceOf source, String.ofList key, expression⟩
      | segments => .error (.segmentCount segments.length)

/-- Understand a binding of a page, with its fault as one of the page. -/
def ofWritten (b : WrittenBinding) : Except Fault Binding :=
  (parse b.target b.expression).mapError fun fault =>
    .invalidBinding b.expression fault.reason

/-- Understand the bindings of a slot, up to the first that is wrong. -/
def ofSlot (slot : Slot) : Except Fault (List Binding) :=
  slot.bindings.mapM ofWritten

/-- The component that a binding depends on. -/
def dependency? (b : Binding) : Option String :=
  match b.source with
  | .params => none
  | .component name => some name

end Binding

end PageRender
