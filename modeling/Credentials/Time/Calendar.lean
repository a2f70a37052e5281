import Credentials.Time.Instant
import Credentials.Decimal.Shortest

/-!
# Instants in the calendar

* `Day.ofNumber`            the civil date of a day number, in the Gregorian calendar throughout;
* `Instant.text`            `2030-01-01 00:00:00 UTC`;
* `Instant.compactText`     `2030-01-01T00:00:00Z`.

A fraction of a second is written with three, six or nine digits, the fewest that are exact. A year
has four digits at least, with a sign if it is negative or has more than four. A leap second is
written as the second behind its own, which is second 60 at the end of a minute.
-/

namespace Credentials

/-- a civil date -/
structure Day where
  year : Int
  month : Nat
  day : Nat
  deriving DecidableEq, Repr

/-- the date `n` days after January 1, 1970. Years are counted from March, so that the leap day is
the last of a year. -/
def Day.ofNumber (n : Int) : Day :=
  let z := n + 719468
  let era := z.fdiv 146097
  let dayOfEra := (z - era * 146097).toNat
  let yearOfEra := (dayOfEra - dayOfEra / 1460 + dayOfEra / 36524 - dayOfEra / 146096) / 365
  let dayOfYear := dayOfEra - (365 * yearOfEra + yearOfEra / 4 - yearOfEra / 100)
  let shifted := (5 * dayOfYear + 2) / 153
  let day := dayOfYear - (153 * shifted + 2) / 5 + 1
  let month := if shifted < 10 then shifted + 3 else shifted - 9
  let year := era * 400 + yearOfEra + (if month ≤ 2 then 1 else 0)
  ⟨year, month, day⟩

/-- the digits of a year -/
def yearText (y : Int) : List Char :=
  if 0 ≤ y ∧ y ≤ 9999 then filled 4 y.toNat
  else if y < 0 then '-' :: filled 4 y.natAbs
  else '+' :: filled 4 y.toNat

/-- the written date -/
def Day.text (d : Day) : List Char :=
  yearText d.year ++ '-' :: filled 2 d.month ++ '-' :: filled 2 d.day

/-- a fraction of a second, with its point -/
def fractionText (nanos : Nat) : List Char :=
  if nanos = 0 then []
  else if nanos % 1000000 = 0 then '.' :: filled 3 (nanos / 1000000)
  else if nanos % 1000 = 0 then '.' :: filled 6 (nanos / 1000)
  else '.' :: filled 9 nanos

namespace Instant

/-- the date of an instant -/
def day (a : Instant) : Day := Day.ofNumber (a.seconds.fdiv 86400)

/-- the written time of day -/
def timeText (a : Instant) : List Char :=
  let s := (a.seconds.fmod 86400).toNat
  let leap := nanosPerSecond ≤ a.nanos
  filled 2 (s / 3600) ++ ':' :: filled 2 (s / 60 % 60) ++ ':' ::
    filled 2 (if leap then s % 60 + 1 else s % 60) ++
    fractionText (if leap then a.nanos - nanosPerSecond else a.nanos)

/-- date and time with the name of the time zone -/
def text (a : Instant) : String := String.ofList (a.day.text ++ ' ' :: a.timeText) ++ " UTC"

/-- date and time in one word -/
def compactText (a : Instant) : String := String.ofList (a.day.text ++ 'T' :: a.timeText ++ ['Z'])

end Instant

end Credentials
