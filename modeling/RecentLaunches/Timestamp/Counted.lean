/-
Moments counted in nanoseconds from the start of 1970, as clocks give them. Leap seconds are not
counted.
-/
import RecentLaunches.Timestamp

namespace RecentLaunches

/-- The date some days after the first of 1970. Years are taken to begin in March, so that the leap
day is the last of its year; four hundred of them have 146097 days, and five months from March or
from August 153. -/
def Date.ofDay? (days : Int) : Option Date :=
  let shifted := days + 719468
  let cycle := shifted / 146097
  let day := shifted % 146097
  -- leap days are taken out before the division into years of 365 days
  let year := (day - day / 1460 + day / 36524 - day / 146096) / 365
  let ofYear := day - (365 * year + year / 4 - year / 100)
  let month := (5 * ofYear + 2) / 153
  let ofMonth := ofYear - (153 * month + 2) / 5 + 1
  -- months 10 and 11 are January and February, which belong to the next calendar year
  let early := 10 ≤ month
  Date.of? (year + cycle * 400 + if early then 1 else 0)
    (if early then month - 9 else month + 3).toNat ofMonth.toNat

/-- The moment some nanoseconds after the start of 1970. -/
def Timestamp.ofNanos? (nanos : Int) : Option Timestamp := do
  let seconds := nanos / 1000000000
  let date ← Date.ofDay? (seconds / 86400)
  let ofDay := (seconds % 86400).toNat
  let clock ← Clock.of? (ofDay / 3600) (ofDay / 60 % 60) (ofDay % 60) (nanos % 1000000000).toNat
  return ⟨date, clock⟩

example : Date.ofDay? 0 = Date.of? 1970 1 1 := by decide
example : Date.ofDay? 11016 = Date.of? 2000 2 29 := by decide
example : Date.ofDay? (-1) = Date.of? 1969 12 31 := by decide
example : Date.ofDay? 47541 = Date.of? 2100 3 1 := by decide

end RecentLaunches
