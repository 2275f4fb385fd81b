/-
The written form of a moment: date and time of day joined by a `T`, as many fractional digits as
are needed in groups of three, and a suffix for universal time.
-/
import RecentLaunches.Timestamp

namespace RecentLaunches

namespace Timestamp

/-- A number in base ten with at least some digits. -/
def padded (width n : Nat) : List Char :=
  let digits := Nat.toDigits 10 n
  List.replicate (width - digits.length) '0' ++ digits

/-- A year: four digits as long as it has no more and is not negative, else a sign and at least
four digits. -/
def yearText (year : Int) : List Char :=
  if 0 ≤ year ∧ year ≤ 9999 then padded 4 year.toNat
  else if year < 0 then '-' :: padded 4 year.natAbs
  else '+' :: padded 4 year.natAbs

/-- The fraction of a second: none, thousandths, millionths or billionths, whichever is the first
that is exact. -/
def fractionText (nano : Nat) : List Char :=
  if nano = 0 then []
  else if nano % 1000000 = 0 then '.' :: padded 3 (nano / 1000000)
  else if nano % 1000 = 0 then '.' :: padded 6 (nano / 1000)
  else '.' :: padded 9 nano

/-- A moment up to its suffix. -/
def text (t : Timestamp) : List Char :=
  yearText t.date.year ++ '-' :: padded 2 t.date.month ++ '-' :: padded 2 t.date.day ++
    'T' :: padded 2 t.clock.hour ++ ':' :: padded 2 t.clock.minute ++ ':' :: padded 2 t.clock.shownSecond ++
    fractionText t.clock.shownNano

/-- The form that is stored. -/
def stored (t : Timestamp) : String :=
  String.ofList (t.text ++ "+00:00".toList)

/-- The form that is exchanged. -/
def exchanged (t : Timestamp) : String :=
  String.ofList (t.text ++ ['Z'])

end Timestamp

end RecentLaunches
