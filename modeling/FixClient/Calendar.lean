/-!
# The calendar

Dates of the proleptic Gregorian calendar, counted in days from the start of
1970. A count is located by walking along the lengths of the years, and within
a year along the lengths of the months.
-/

namespace FixClient.Calendar

/-- Every fourth year is a leap year, except centuries that 400 does not divide. -/
def isLeap (year : Nat) : Bool :=
  year % 4 == 0 && (year % 100 != 0 || year % 400 == 0)

/-- The lengths of the months of a year, January first. -/
def monthLengths (year : Nat) : List Nat :=
  [31, if isLeap year then 29 else 28, 31, 30, 31, 30, 31, 31, 30, 31, 30, 31]

def yearLength (year : Nat) : Nat := if isLeap year then 366 else 365

theorem sum_monthLengths (year : Nat) : (monthLengths year).foldl (· + ·) 0 = yearLength year := by
  unfold monthLengths yearLength
  cases isLeap year <;> rfl

/-- Walks along consecutive stretches: the number of stretches passed and the
distance into the one reached. -/
def locate : List Nat → Nat → Nat × Nat
  | [], d => (0, d)
  | len :: rest, d =>
    if d < len then (0, d)
    else
      let (i, r) := locate rest (d - len)
      (i + 1, r)

def epochYear : Nat := 1970

/-- The number of years a timestamp can reach. -/
def yearCount : Nat := 293

/-- A day of the calendar. Months and days count from 1. -/
structure Date where
  year : Nat
  month : Nat
  day : Nat
  deriving DecidableEq, Repr

/-- The date `days` days after the first of January 1970. -/
def Date.ofDays (days : Nat) : Date :=
  let (years, inYear) := locate ((List.range' epochYear yearCount).map yearLength) days
  let (months, inMonth) := locate (monthLengths (epochYear + years)) inYear
  ⟨epochYear + years, months + 1, inMonth + 1⟩

end FixClient.Calendar
