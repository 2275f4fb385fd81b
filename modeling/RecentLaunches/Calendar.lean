/-
Dates of the Gregorian calendar, extended backwards. A date exists by its type: the month and the
day are those of a real day, and the year is one that a timestamp can hold.
-/
namespace RecentLaunches

namespace Calendar

/-- The first year a date can have. -/
def firstYear : Int := -262143

/-- The last year a date can have. -/
def lastYear : Int := 262142

/-- Every fourth year is a leap year, except the centuries that four hundred does not divide. -/
def isLeap (year : Int) : Bool :=
  year % 4 == 0 && (year % 100 != 0 || year % 400 == 0)

/-- The days of a month. -/
def daysIn (year : Int) (month : Nat) : Nat :=
  if month = 2 then if isLeap year then 29 else 28
  else if month = 4 ∨ month = 6 ∨ month = 9 ∨ month = 11 then 30
  else 31

/-- Whether three numbers make a date. -/
def isDate (year : Int) (month day : Nat) : Bool :=
  firstYear ≤ year && year ≤ lastYear && 1 ≤ month && month ≤ 12 && 1 ≤ day && day ≤ daysIn year month

end Calendar

/-- A day that exists. -/
structure Date where
  year : Int
  month : Nat
  day : Nat
  isDate : Calendar.isDate year month day = true
  deriving DecidableEq

namespace Date

/-- The date that three numbers make, if they make one. -/
def of? (year : Int) (month day : Nat) : Option Date :=
  if h : Calendar.isDate year month day = true then some ⟨year, month, day, h⟩ else none

/-- The day after: in the same month, else in the same year, else in the next year. -/
def next? (d : Date) : Option Date :=
  of? d.year d.month (d.day + 1) <|> of? d.year (d.month + 1) 1 <|> of? (d.year + 1) 1 1

/-- The day before: in the same month, else in the same year, else in the year before. -/
def previous? (d : Date) : Option Date :=
  of? d.year d.month (d.day - 1) <|>
    of? d.year (d.month - 1) (Calendar.daysIn d.year (d.month - 1)) <|> of? (d.year - 1) 12 31

theorem of?_eq_some {y : Int} {m d : Nat} {x : Date} :
    of? y m d = some x ↔ x.year = y ∧ x.month = m ∧ x.day = d := by
  unfold of?
  constructor
  · intro h
    split at h
    · cases h; exact ⟨rfl, rfl, rfl⟩
    · cases h
  · rintro ⟨rfl, rfl, rfl⟩
    rw [dif_pos x.isDate]

example : (of? 2024 2 29).bind next? = of? 2024 3 1 := by decide
example : (of? 2023 2 28).bind next? = of? 2023 3 1 := by decide
example : (of? 1900 3 1).bind previous? = of? 1900 2 28 := by decide
example : (of? 0 1 1).bind previous? = of? (-1) 12 31 := by decide
example : (of? 262142 12 31).bind next? = none := by decide

end Date

end RecentLaunches
