/-
References in attribute values. Writing replaces the five characters with a meaning in markup by
their named references; reading replaces these five names and the references to a code point.
-/
import RecentLaunches.Text.Cut

namespace RecentLaunches.Markup

/-- Why the digits of a reference name no character. -/
inductive ReferenceFault
  | sign
  | noDigits
  | badDigit
  | tooLarge
  | zero
  | notScalar (code : Nat)
  deriving DecidableEq, Repr

/-- Why a value cannot be read. Positions are bytes of the value. -/
inductive EntityFault
  | unterminated (start stop : Nat)
  | unknown (start stop : Nat) (name : List Char)
  | reference (fault : ReferenceFault)
  deriving DecidableEq, Repr

/-! ## Writing -/

/-- A character as it is written in a value. -/
def escapeChar (c : Char) : List Char :=
  if c = '<' then "&lt;".toList
  else if c = '>' then "&gt;".toList
  else if c = '&' then "&amp;".toList
  else if c = '\'' then "&apos;".toList
  else if c = '"' then "&quot;".toList
  else [c]

/-- A text as it is written in a value. -/
def escape (cs : List Char) : List Char :=
  cs.flatMap escapeChar

/-! ## Code points -/

/-- The value of a digit in a base up to sixteen. -/
def digitValue? (base : Nat) (c : Char) : Option Nat :=
  let n := c.toNat
  let v :=
    if 48 ≤ n ∧ n ≤ 57 then n - 48
    else if 97 ≤ n ∧ n ≤ 102 then n - 87
    else if 65 ≤ n ∧ n ≤ 70 then n - 55
    else base
  if v < base then some v else none

/-- The largest number that is read before its value as a code point is asked for. -/
def maxCode : Nat := 0xffffffff

/-- Reads digits from the left. The first bad digit or the first number that is too large decides;
at one digit, being bad comes first. -/
def readDigits (base : Nat) (value : Nat) : List Char → Except ReferenceFault Nat
  | [] => .ok value
  | c :: cs =>
    match digitValue? base c with
    | none => .error .badDigit
    | some d =>
      if value * base + d ≤ maxCode then readDigits base (value * base + d) cs
      else .error .tooLarge

/-- The number written by some digits. A sign is no digit and neither is nothing. -/
def readNumber (base : Nat) : List Char → Except ReferenceFault Nat
  | [] => .error .noDigits
  | c :: cs => if c = '+' ∨ c = '-' then .error .sign else readDigits base 0 (c :: cs)

/-- The character of a code point. -/
def scalar (n : Nat) : Except ReferenceFault Char :=
  if n = 0 then .error .zero
  else if h : n.isValidChar then .ok (Char.ofNatAux n h)
  else .error (.notScalar n)

/-- The character named by the text between `&#` and `;`. -/
def readReference : List Char → Except ReferenceFault Char
  | 'x' :: digits => do scalar (← readNumber 16 digits)
  | digits => do scalar (← readNumber 10 digits)

/-! ## Reading -/

/-- The character of a named reference. -/
def named? (name : List Char) : Option Char :=
  if name = ['l', 't'] then some '<'
  else if name = ['g', 't'] then some '>'
  else if name = ['a', 'm', 'p'] then some '&'
  else if name = ['a', 'p', 'o', 's'] then some '\''
  else if name = ['q', 'u', 'o', 't'] then some '"'
  else none

/-- The character of a reference whose name starts at a position. -/
def resolve (start : Nat) (name : List Char) : Except EntityFault Char :=
  match name with
  | '#' :: digits => (readReference digits).mapError .reference
  | _ =>
    match named? name with
    | some c => .ok c
    | none => .error (.unknown start (start + Text.size name) name)

/-- Whether a character may be part of the name of a reference. -/
def inName (c : Char) : Bool :=
  c != '&' && c != ';'

/-- Reads the rest of a value of which `total` is the size. -/
def unescapeFrom (total : Nat) (s : List Char) : Except EntityFault (List Char) :=
  match s with
  | [] => .ok []
  | c :: r =>
    if c = '&' then
      match hr : r.dropWhile inName with
      | ';' :: rest => do
        have : rest.length < (c :: r).length := by
          have h := (List.dropWhile_sublist inName (l := r)).length_le
          rw [hr] at h
          simp at h ⊢; omega
        let d ← resolve (total - Text.size r) (r.takeWhile inName)
        return d :: (← unescapeFrom total rest)
      | _ => .error (.unterminated (total - Text.size s) total)
    else do
      return c :: (← unescapeFrom total r)
termination_by s.length
decreasing_by all_goals simp_all

/-- The text that a value stands for. -/
def unescape (value : List Char) : Except EntityFault (List Char) :=
  unescapeFrom (Text.size value) value

end RecentLaunches.Markup
