/-
Moments in universal time, to the nanosecond. A leap second has no number of its own: the second
before it goes on, and its nanoseconds are counted up to two thousand millions. Where it is shown, it
has the next number, which is 60 at the end of a minute.
-/
import RecentLaunches.Calendar

namespace RecentLaunches

/-- Whether four numbers make a time of day. A leap second may follow any second. -/
def Calendar.isTime (hour minute second nano : Nat) : Bool :=
  hour < 24 && minute < 60 && second < 60 && nano < 2000000000

/-- A time of day. -/
structure Clock where
  hour : Nat
  minute : Nat
  second : Nat
  nano : Nat
  isTime : Calendar.isTime hour minute second nano = true
  deriving DecidableEq

/-- The time of day that four numbers make, if they make one. -/
def Clock.of? (hour minute second nano : Nat) : Option Clock :=
  if h : Calendar.isTime hour minute second nano = true then some ⟨hour, minute, second, nano, h⟩
  else none

/-- The time of day that is shown by four numbers, if they show one. The second 60 is the leap second
at the end of its minute, and no other second goes on. -/
def Clock.ofShown? (hour minute second nano : Nat) : Option Clock :=
  if 1000000000 ≤ nano then none
  else if second = 60 then of? hour minute 59 (1000000000 + nano)
  else of? hour minute second nano

/-- The number that a second is shown with. -/
def Clock.shownSecond (c : Clock) : Nat :=
  c.second + c.nano / 1000000000

/-- The nanoseconds that are shown. -/
def Clock.shownNano (c : Clock) : Nat :=
  c.nano % 1000000000

/-- A moment in universal time. -/
structure Timestamp where
  date : Date
  clock : Clock
  deriving DecidableEq

namespace Timestamp

/-- The minutes of a day. -/
def minutesPerDay : Int := 1440

/-- The moment that a wall clock shows which is some minutes ahead of universal time. The day may
be the one before or the one after; beyond the calendar there is no moment. -/
def ofLocal? (date : Date) (clock : Clock) (ahead : Int) : Option Timestamp := do
  let minutes : Int := clock.hour * 60 + clock.minute - ahead
  let day ←
    if minutes < 0 then date.previous?
    else if minutesPerDay ≤ minutes then date.next?
    else some date
  let ofDay := (minutes % minutesPerDay).toNat
  let time ← Clock.of? (ofDay / 60) (ofDay % 60) clock.second clock.nano
  return ⟨day, time⟩

end Timestamp

end RecentLaunches
