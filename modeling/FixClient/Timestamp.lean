import FixClient.Calendar
import FixClient.Text.Numeral

/-!
# Timestamps

A timestamp counts nanoseconds since the start of 1970, UTC. The latest instant
it shows is the largest signed 64-bit count, in April 2262.
-/

namespace FixClient

/-- A moment in UTC: whole seconds since the start of 1970, without the leap seconds, and
nanoseconds on top of them. From a full second of nanoseconds on it lies in a leap second, which
prolongs the second it is in. -/
structure Utc where
  seconds : Int
  nanos : Nat
  nanos_lt : nanos < 2000000000
  deriving DecidableEq, Repr

namespace Utc

/-- Moments are in the order of their seconds, and within a second of their nanoseconds. -/
instance : LE Utc where
  le a b := a.seconds < b.seconds ∨ a.seconds = b.seconds ∧ a.nanos ≤ b.nanos

/-- The distance from the start of 1970 in nanoseconds. A leap second runs on into the
second after it. -/
def instant (u : Utc) : Int := u.seconds * 1000000000 + u.nanos

/-- A number that fits a signed 64-bit word. -/
def word? (n : Int) : Option Int := if -2 ^ 63 ≤ n ∧ n < 2 ^ 63 then some n else none

/-- The distance from the start of 1970 as it is counted in signed 64-bit words. Before 1970 the
nanoseconds are taken off the end of the second, so that the product with the seconds fits
wherever the distance of a moment outside of leap seconds does. -/
def count? (u : Utc) : Option Int :=
  if u.seconds < 0 then
    (word? ((u.seconds + 1) * 1000000000)).bind fun n => word? (n + (u.nanos - 1000000000))
  else (word? (u.seconds * 1000000000)).bind fun n => word? (n + u.nanos)

end Utc

/-- Nanoseconds since the start of 1970. -/
@[ext] structure Timestamp where
  nanos : UInt64
  deriving DecidableEq, Repr

namespace Timestamp

def nanosPerSecond : Nat := 1000000000

/-- The latest instant that can be shown. -/
def maxNanos : Nat := 2 ^ 63 - 1

/-- Whole seconds since 1970. Counts past the range stop at its end. -/
def ofSeconds (seconds : UInt64) : Timestamp :=
  ⟨(min (seconds.toNat * nanosPerSecond) maxNanos).toUInt64⟩

/-- A signed count of nanoseconds, kept as a 64-bit word: one before 1970 wraps. -/
def ofCount (nanos : Int) : Timestamp := ⟨(nanos % 2 ^ 64).toNat.toUInt64⟩

/-- A moment that cannot be counted becomes the start of 1970. -/
def ofUtc (u : Utc) : Timestamp := (u.count?.map ofCount).getD ⟨0⟩

def shown (t : Timestamp) : Nat := min t.nanos.toNat maxNanos

/-- Year, month and day as `YYYYMMDD`. -/
def dateText (t : Timestamp) : List Char :=
  let date := Calendar.Date.ofDays (t.shown / nanosPerSecond / 86400)
  Numeral.fixed 4 date.year ++ Numeral.fixed 2 date.month ++ Numeral.fixed 2 date.day

/-- Date and time as `YYYYMMDD-HH:MM:SS`. -/
def secondsText (t : Timestamp) : List Char :=
  let second := t.shown / nanosPerSecond % 86400
  t.dateText ++ '-' :: Numeral.fixed 2 (second / 3600) ++ ':' ::
    Numeral.fixed 2 (second / 60 % 60) ++ ':' :: Numeral.fixed 2 (second % 60)

/-- Date and time as `YYYYMMDD-HH:MM:SS.sss`. Further digits are cut off. -/
def millisText (t : Timestamp) : List Char :=
  t.secondsText ++ '.' :: Numeral.fixed 3 (t.shown % nanosPerSecond / 1000000)

end Timestamp

end FixClient
