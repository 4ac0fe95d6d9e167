import PageRender.Json.Decode

/-!
# Tallies

What a pass has counted: the components that it planned, those that rendered, were skipped or
failed, and the bindings that it resolved.
-/

namespace PageRender

/-- The counts of a pass. -/
structure Tally where
  planned : Nat := 0
  /-- Components whose operation ran. -/
  rendered : Nat := 0
  /-- Components that did not show. -/
  skipped : Nat := 0
  failed : Nat := 0
  bindings : Nat := 0
  /-- How long the pass took, in milliseconds. -/
  elapsed : Nat := 0
deriving DecidableEq

namespace Tally

/-- Count a render that was successful. -/
def countRender (t : Tally) (visible : Bool) : Tally :=
  if visible then { t with rendered := t.rendered + 1 } else { t with skipped := t.skipped + 1 }

/-- Count a render that failed. -/
def countFailure (t : Tally) : Tally :=
  { t with failed := t.failed + 1 }

/-- Count resolved bindings. -/
def countBindings (t : Tally) (n : Nat) : Tally :=
  { t with bindings := t.bindings + n }

/-- The greatest number of milliseconds that is recorded. -/
def longest : Nat := wordSize - 1

/-- Record how long the pass took. Parts of a millisecond are dropped. -/
def recordElapsed (t : Tally) (seconds nanoseconds : Nat) : Tally :=
  { t with elapsed := min longest (seconds * 1000 + nanoseconds / 1000000) }

/-- The components that got to the end. -/
def completed (t : Tally) : Nat :=
  t.rendered + t.skipped

/-- The planned components that never ran. -/
def notReached (t : Tally) : Nat :=
  t.planned - t.completed - t.failed

/-- The document of a tally. The count of bindings is written as a word, which wraps. -/
def encode (t : Tally) : Json :=
  .object [("planned", Encode.nat t.planned), ("rendered", Encode.nat t.rendered),
    ("skipped", Encode.nat t.skipped), ("failed", Encode.nat t.failed),
    ("bindingsResolved", Encode.nat (t.bindings % wordSize)), ("elapsedMs", Encode.nat t.elapsed)]

end Tally

end PageRender
