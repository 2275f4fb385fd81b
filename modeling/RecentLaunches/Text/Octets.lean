/-
Bytes as text. Bytes that are no text in UTF-8 are shown by the replacement character: one for each
byte that begins no character, and one for each character that breaks off, with what there is of it.
-/
namespace RecentLaunches.Text

/-- A character that has begun: how many bytes it still lacks, the bounds of the next of them, and
its number as far as it has been read. -/
structure Begun where
  lacks : Nat
  low : UInt8 := 0x80
  high : UInt8 := 0xbf
  number : Nat

/-- The character that a byte begins. -/
def begun? (b : UInt8) : Option Begun :=
  if b < 0x80 then some { lacks := 0, number := b.toNat }
  else if b < 0xc2 then none
  else if b < 0xe0 then some { lacks := 1, number := b.toNat % 32 }
  else if b = 0xe0 then some { lacks := 2, low := 0xa0, number := 0 }
  else if b = 0xed then some { lacks := 2, high := 0x9f, number := 13 }
  else if b < 0xf0 then some { lacks := 2, number := b.toNat % 16 }
  else if b = 0xf0 then some { lacks := 3, low := 0x90, number := 0 }
  else if b < 0xf4 then some { lacks := 3, number := b.toNat % 8 }
  else if b = 0xf4 then some { lacks := 3, high := 0x8f, number := 4 }
  else none

/-- The number of a character, from its number so far, the bytes it lacks and the bounds of the next
of them, or none if it breaks off; and the bytes that do not belong to it. -/
def readLacking (number : Nat) : Nat → UInt8 → UInt8 → List UInt8 → Option Nat × List UInt8
  | 0, _, _, bytes => (some number, bytes)
  | _ + 1, _, _, [] => (none, [])
  | lacks + 1, low, high, b :: bytes =>
    if low ≤ b ∧ b ≤ high then readLacking (number * 64 + b.toNat % 64) lacks 0x80 0xbf bytes
    else (none, b :: bytes)

theorem length_readLacking (number lacks : Nat) (low high : UInt8) (bytes : List UInt8) :
    (readLacking number lacks low high bytes).2.length ≤ bytes.length := by
  induction bytes generalizing number lacks low high with
  | nil => cases lacks <;> simp [readLacking]
  | cons b bytes ih =>
    cases lacks with
    | zero => simp [readLacking]
    | succ lacks =>
      unfold readLacking
      split
      · exact Nat.le_succ_of_le (ih ..)
      · exact Nat.le_refl _

/-- What is shown for bytes that are no character. -/
def replacement : Char := '\ufffd'

/-- Bytes as text. -/
def ofOctets : List UInt8 → List Char
  | [] => []
  | b :: bytes =>
    match begun? b with
    | none => replacement :: ofOctets bytes
    | some c =>
      let read := readLacking c.number c.lacks c.low c.high bytes
      (read.1.map Char.ofNat).getD replacement :: ofOctets read.2
termination_by bytes => bytes.length
decreasing_by
  · exact Nat.lt_succ_self _
  · exact Nat.lt_succ_of_le (length_readLacking ..)

end RecentLaunches.Text
