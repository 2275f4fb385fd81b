/-
Unquoted values of a settings file: numbers, dates, times and truth values. Each is one run of
characters, and a date may go on with a time after a space. A value that is well formed but cannot
be held (an integer beyond 64 bits, a float beyond the largest, a day that does not exist) counts as
malformed.
-/
import RecentLaunches.Timestamp.Reader

namespace RecentLaunches.Toml

/-! ## Digits -/

/-- Whether a character is a digit of a base up to sixteen. -/
def isDigitOf (base : Nat) (c : Char) : Bool :=
  ("0123456789abcdef".toList.take base).contains c.toLower

/-- Digits of a base, where an underscore may stand between two of them. -/
def isGrouped (base : Nat) : List Char → Bool
  | [] => false
  | [c] => isDigitOf base c
  | c :: '_' :: r => isDigitOf base c && isGrouped base r
  | c :: r => isDigitOf base c && isGrouped base r

/-- The number that grouped digits write. -/
def valueOf (base : Nat) (cs : List Char) : Nat :=
  (cs.filter (· ≠ '_')).foldl (fun n c => n * base + digit c.toLower) 0
where
  digit (c : Char) : Nat := if c.isDigit then c.toNat - 48 else c.toNat - 87

/-- A text without the sign it may start with; whether it is negative. -/
def unsigned (cs : List Char) : Bool × List Char :=
  match cs with
  | '+' :: r => (false, r)
  | '-' :: r => (true, r)
  | _ => (false, cs)

/-! ## Integers -/

/-- A decimal integer without a sign. A zero stands alone. -/
def isWhole (cs : List Char) : Bool :=
  isGrouped 10 cs && (cs.head? ≠ some '0' || cs.length = 1)

/-- The first number beyond the integers that 64 bits hold. -/
def integerLimit : Nat := 0x8000000000000000

/-- An integer that 64 bits hold: decimal with or without a sign, or in base 16, 8 or 2. -/
def isInteger (cs : List Char) : Bool :=
  match cs with
  | '0' :: 'x' :: r => isGrouped 16 r && valueOf 16 r < integerLimit
  | '0' :: 'o' :: r => isGrouped 8 r && valueOf 8 r < integerLimit
  | '0' :: 'b' :: r => isGrouped 2 r && valueOf 2 r < integerLimit
  | _ =>
    let (negative, r) := unsigned cs
    isWhole r && valueOf 10 r < integerLimit + (if negative then 1 else 0)

/-! ## Floats -/

/-- The number half a step above the largest float. -/
def floatLimit : Nat :=
  Nat.pow 2 1024 - Nat.pow 2 970

/-- Whether a decimal number is beyond the floats. Numbers far from their limit are told by their
size. -/
def isTooLarge (digits : Nat) (exponent : Int) : Bool :=
  let size : Int := (Nat.toDigits 10 digits).length + exponent
  if digits = 0 ∨ size < 300 then false
  else if 400 < size then true
  else floatLimit * Nat.pow 10 (-exponent).toNat ≤ digits * Nat.pow 10 exponent.toNat

/-- A decimal number with a fraction, an exponent or both. Only a positive number can be too
large. -/
def isDecimal (cs : List Char) : Bool :=
  let (negative, r) := unsigned cs
  let whole := r.takeWhile fun c => c ≠ '.' && c.toLower ≠ 'e'
  let r := r.drop whole.length
  let (fraction, r, sound) : List Char × List Char × Bool :=
    match r with
    | '.' :: r =>
      let f := r.takeWhile (·.toLower ≠ 'e')
      (f, r.drop f.length, isGrouped 10 f)
    | _ => ([], r, !r.isEmpty)
  let (exponent, sound) : Int × Bool :=
    match r with
    | [] => (0, sound)
    | _ :: r =>
      let (below, e) := unsigned r
      let n : Int := valueOf 10 e
      (if below then -n else n, sound && isGrouped 10 e)
  let places := (fraction.filter (· ≠ '_')).length
  sound && isWhole whole &&
    (negative || !isTooLarge (valueOf 10 (whole ++ fraction)) (exponent - places))

/-- A float, among them the infinities and what is not a number. -/
def isFloat (cs : List Char) : Bool :=
  let word := String.ofList (unsigned cs).2
  word == "inf" || word == "nan" || isDecimal cs

/-! ## Dates and times -/

/-- A day that exists. -/
def day (s : List Char) : Option (List Char) := do
  let (y, s) ← Timestamp.number 4 4 s
  let s ← Timestamp.mark '-' s
  let (m, s) ← Timestamp.number 2 2 s
  let s ← Timestamp.mark '-' s
  let (d, s) ← Timestamp.number 2 2 s
  if Calendar.isDate y m d then return s else none

/-- A time of day, with a leap second at most. -/
def time (s : List Char) : Option (List Char) := do
  let (h, s) ← Timestamp.number 2 2 s
  let s ← Timestamp.mark ':' s
  let (m, s) ← Timestamp.number 2 2 s
  let s ← Timestamp.mark ':' s
  let (sec, s) ← Timestamp.number 2 2 s
  let (_, s) ← Timestamp.fraction s
  if h < 24 ∧ m < 60 ∧ sec ≤ 60 then return s else none

/-- An offset from universal time of less than a day. -/
def offset (s : List Char) : Option (List Char) := do
  let (minutes, s) ← Timestamp.offset (Timestamp.mark ':') s
  if minutes.natAbs < 24 * 60 then return s else none

/-- A time of day, with or without an offset, and nothing else. -/
def isMoment (s : List Char) : Bool :=
  match time s with
  | none => false
  | some [] => true
  | some r => offset r == some []

/-- A day, a time or both. -/
def isDateTime (s : List Char) : Bool :=
  match day s with
  | some [] => true
  | some (c :: r) => c.toLower = 't' && isMoment r
  | none => time s == some []

/-! ## Values -/

/-- Whether a character can be part of an unquoted value. -/
def isValueChar (c : Char) : Bool :=
  c.isAlphanum || c = '+' || c = '-' || c = '_' || c = '.' || c = ':'

/-- Whether a run of characters is an unquoted value. -/
def isValue (cs : List Char) : Bool :=
  let word := String.ofList cs
  word == "true" || word == "false" || isInteger cs || isFloat cs || isDateTime cs

/-- What follows an unquoted value. -/
def unquoted (s : List Char) : Option (List Char) :=
  let run := s.takeWhile isValueChar
  let rest := s.drop run.length
  match day run, rest with
  | some [], ' ' :: r =>
    -- what follows the space is a time or does not belong to the value
    let second := r.takeWhile isValueChar
    if (second.head?.map Char.isDigit).getD false then
      if isMoment second then some (r.drop second.length) else none
    else some rest
  | _, _ => if isValue run then some rest else none

end RecentLaunches.Toml
