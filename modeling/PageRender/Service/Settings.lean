import PageRender.Json.Decode

/-!
# Settings

The settings of a rendering service, and their document.
-/

namespace PageRender

/-- The settings of a service. -/
structure Settings where
  /-- How many components may render at the same time. None and zero set no bound. -/
  maxParallel : Option Nat := none
  /-- The locale of requests that name none. -/
  defaultLocale : String := "en"
  /-- Whether a pass that has nothing to render is a fault. -/
  rejectEmptyPlan : Bool := false
deriving DecidableEq

namespace Settings

/-- The number of permits. -/
def permits (s : Settings) : Option Nat :=
  s.maxParallel.filter (0 < ·)

theorem permits_ne_zero (s : Settings) : s.permits ≠ some 0 := by
  simp [permits]

/-- The document of settings. -/
def encode (s : Settings) : Json :=
  .object [("max_parallel_units", Encode.nullable Encode.nat s.maxParallel),
    ("default_locale", .string s.defaultLocale), ("reject_empty_plan", .bool s.rejectEmptyPlan)]

/-- Decode settings. What is left out keeps its default. -/
def decode : Decoder Settings :=
  Decode.record ["max_parallel_units", "default_locale", "reject_empty_plan"] fun depth slots => do
    let absent : Settings := {}
    some {
      maxParallel := ← Decode.optional depth slots "max_parallel_units" absent.maxParallel
        (Decode.nullable Decode.nat)
      defaultLocale := ← Decode.optional depth slots "default_locale" absent.defaultLocale
        Decode.string
      rejectEmptyPlan := ← Decode.optional depth slots "reject_empty_plan" absent.rejectEmptyPlan
        Decode.bool }

end Settings

end PageRender
