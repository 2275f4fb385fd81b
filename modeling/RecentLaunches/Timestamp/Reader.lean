/-
Reading moments. Stored text is read strictly: every part has its full number of digits and nothing
stands between the parts. Exchanged text is read leniently: white space between the parts, short
numbers, signed years and other spellings of the offset are accepted. Both readers take all of the
text or nothing, and give the moment in universal time.
-/
import RecentLaunches.Text.Blank
import RecentLaunches.Text.Cut
import RecentLaunches.Timestamp

namespace RecentLaunches

namespace Timestamp

/-! ## Parts -/

/-- The number that some decimal digits write. -/
def numberOf (digits : List Char) : Nat :=
  digits.foldl (fun n c => n * 10 + (c.toNat - 48)) 0

/-- A number of at least `least` digits; at most `most` are taken. -/
def number (least most : Nat) (s : List Char) : Option (Nat × List Char) :=
  let digits := (s.take most).takeWhile Char.isDigit
  if digits.length < least then none else some (numberOf digits, s.drop digits.length)

/-- A given character. -/
def mark (c : Char) (s : List Char) : Option (List Char) :=
  match s with
  | d :: r => if d = c then some r else none
  | [] => none

/-- The character between date and time: `T` in either case or a space. -/
def divider (s : List Char) : Option (List Char) :=
  match s with
  | 'T' :: r | 't' :: r | ' ' :: r => some r
  | _ => none

/-- A fraction of a second in nanoseconds, where a point announces one. Digits after the ninth have
no effect. -/
def fraction (s : List Char) : Option (Nat × List Char) :=
  match s with
  | '.' :: r =>
    let digits := r.takeWhile Char.isDigit
    let taken := digits.take 9
    if digits.isEmpty then none
    else some (numberOf taken * Nat.pow 10 (9 - taken.length), r.drop digits.length)
  | _ => some (0, s)

/-- The sign of an offset; whether it is behind universal time. The minus sign may be the
typographic one. -/
def sign (s : List Char) : Option (Bool × List Char) :=
  match s with
  | '+' :: r => some (false, r)
  | '-' :: r | '\u2212' :: r => some (true, r)
  | _ => none

/-- An offset in minutes: `Z`, or a sign, two digits of hours, a separator, two digits of minutes. -/
def offset (separator : List Char → Option (List Char)) (s : List Char) : Option (Int × List Char) :=
  match s with
  | 'Z' :: r | 'z' :: r => some (0, r)
  | _ => do
    let (behind, s) ← sign s
    let (hours, s) ← number 2 2 s
    let s ← separator s
    let (minutes, s) ← number 2 2 s
    if minutes < 60 then
      let total : Int := hours * 60 + minutes
      return (if behind then -total else total, s)
    else none

/-- The moment of a date and a time of day given as numbers, with an offset of less than a day. -/
def assemble (year : Int) (month day hour minute second nano : Nat) (ahead : Int) : Option Timestamp := do
  let date ← Date.of? year month day
  let clock ← Clock.ofShown? hour minute second nano
  if -minutesPerDay < ahead ∧ ahead < minutesPerDay then ofLocal? date clock ahead else none

/-- The result of a reader that has taken the whole text. -/
def complete {α : Type} (p : α × List Char) : Option α :=
  if p.2.isEmpty then some p.1 else none

/-! ## Stored text -/

/-- Reads the stored form of a moment. -/
def readStored (text : String) : Option Timestamp := do
  let (year, s) ← number 4 4 text.toList
  let (month, s) ← number 2 2 (← mark '-' s)
  let (day, s) ← number 2 2 (← mark '-' s)
  let (hour, s) ← number 2 2 (← divider s)
  let (minute, s) ← number 2 2 (← mark ':' s)
  let (second, s) ← number 2 2 (← mark ':' s)
  let (nano, s) ← fraction s
  let ahead ← complete (← offset (mark ':') s)
  assemble year month day hour minute second nano ahead

/-! ## Exchanged text -/

/-- The text without white space before it. -/
def skip (s : List Char) : List Char :=
  s.dropWhile Text.isBlank

/-- A year: up to four digits, or a sign and any number of digits. -/
def year (s : List Char) : Option (Int × List Char) :=
  match s with
  | '-' :: r => (number 1 r.length r).map fun p => (-(p.1 : Int), p.2)
  | '+' :: r => (number 1 r.length r).map fun p => ((p.1 : Int), p.2)
  | _ => (number 1 4 s).map fun p => ((p.1 : Int), p.2)

/-- What may stand between the hours and minutes of an offset: any colons and white space. -/
def looseSeparator (s : List Char) : Option (List Char) :=
  some (s.dropWhile fun c => c == ':' || Text.isBlank c)

/-- An offset, where the word `UTC` in any case is one too. -/
def looseOffset (s : List Char) : Option (Int × List Char) :=
  if Text.sameIgnoringCase (s.take 3) "UTC".toList then some (0, s.drop 3)
  else offset looseSeparator s

/-- Reads the exchanged form of a moment. -/
def readExchanged (text : String) : Option Timestamp := do
  let (year, s) ← year (skip text.toList)
  let (month, s) ← number 1 2 (skip (← mark '-' (skip s)))
  let (day, s) ← number 1 2 (skip (← mark '-' (skip s)))
  let (hour, s) ← number 1 2 (skip (← divider s))
  let (minute, s) ← number 1 2 (skip (← mark ':' (skip s)))
  let (second, s) ← number 1 2 (skip (← mark ':' (skip s)))
  let (nano, s) ← fraction s
  let (ahead, s) ← looseOffset (skip s)
  assemble year month day hour minute second nano (← complete (ahead, skip s))

end Timestamp

end RecentLaunches
