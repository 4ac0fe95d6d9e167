import PageRender.Number.Basic

/-!
# Moments

Moments in universal time, and their text: the date and the time of day with a fraction of the
second that has as many digits as it needs, in groups of three.
-/

namespace PageRender

/-- A moment, counted from the beginning of the year 1970. -/
structure Moment where
  seconds : Nat
  nanoseconds : Nat

namespace Moment

/-- A number with zeros in front up to a width. -/
def padded (width n : Nat) : List Char :=
  let digits := digitsOf n
  List.replicate (width - digits.length) '0' ++ digits

/-- A date of the calendar. -/
structure Date where
  year : Nat
  month : Nat
  day : Nat
deriving DecidableEq

/-- The date of a day, counted from the beginning of the year 1970. The count is moved to the first
of March of the year 0, so that a leap day ends its year; 146097 days make 400 years. -/
def dateOfDay (day : Nat) : Date :=
  let days := day + 719468
  let era := days / 146097
  let inEra := days % 146097
  let yearOfEra := (inEra - inEra / 1460 + inEra / 36524 - inEra / 146096) / 365
  let inYear := inEra - (365 * yearOfEra + yearOfEra / 4 - yearOfEra / 100)
  let shifted := (5 * inYear + 2) / 153
  let month := if shifted < 10 then shifted + 3 else shifted - 9
  { year := yearOfEra + 400 * era + (if month ≤ 2 then 1 else 0)
    month
    day := inYear - (153 * shifted + 2) / 5 + 1 }

/-- The fraction of a second: none, or three, six or nine digits. -/
def fraction (nanoseconds : Nat) : List Char :=
  if nanoseconds = 0 then []
  else if nanoseconds % 1000000 = 0 then '.' :: padded 3 (nanoseconds / 1000000)
  else if nanoseconds % 1000 = 0 then '.' :: padded 6 (nanoseconds / 1000)
  else '.' :: padded 9 nanoseconds

/-- The text of a moment. -/
def text (m : Moment) : String :=
  let date := dateOfDay (m.seconds / 86400)
  let second := m.seconds % 86400
  String.ofList (padded 4 date.year ++ '-' :: padded 2 date.month ++ '-' :: padded 2 date.day ++
    'T' :: padded 2 (second / 3600) ++ ':' :: padded 2 (second / 60 % 60) ++
    ':' :: padded 2 (second % 60) ++ fraction m.nanoseconds ++ ['Z'])

example : dateOfDay 19782 = ⟨2024, 2, 29⟩ := by decide

end Moment

end PageRender
