/-
The stored form of a list of modes: one JSON array of mode words. It is written without blanks and
read with blanks wherever JSON allows them; a mode may also be an object with its word as the only
key and the value null.
-/
import RecentLaunches.Json.Literal
import RecentLaunches.Mode
import RecentLaunches.Text.Cut

namespace RecentLaunches

namespace StoredModes

/-! ## Writing -/

/-- A mode word in quotes. -/
def word (m : Mode) : List Char :=
  '"' :: m.name.toList ++ ['"']

/-- The stored form of some modes. -/
def encode (ms : List Mode) : String :=
  String.ofList ('[' :: [','].intercalate (ms.map word) ++ [']'])

/-! ## Reading -/

/-- The text without JSON blanks before it. -/
def skip (s : List Char) : List Char :=
  s.dropWhile fun c => c == ' ' || c == '\n' || c == '\t' || c == '\r'

theorem length_skip (s : List Char) : (skip s).length ≤ s.length :=
  (List.dropWhile_sublist _).length_le

/-- The text after a given start and the blanks behind it. -/
def expect (start : List Char) (s : List Char) : Option (List Char) :=
  (Text.after start s).map skip

/-- A mode as a literal, with the blanks behind it. -/
def readWord (s : List Char) : Option (Mode × List Char) := do
  let r ← Text.after ['"'] s
  let (text, r) ← Json.readLiteral r
  let m ← Mode.ofName? (String.ofList text)
  return (m, skip r)

/-- A mode in either spelling, with the blanks behind it. -/
def readMode (s : List Char) : Option (Mode × List Char) :=
  match expect ['\x7b'] s with
  | none => readWord s
  | some r => do
    let (m, r) ← readWord r
    let r ← expect [':'] r
    let r ← expect ['n', 'u', 'l', 'l'] r
    let r ← expect ['\x7d'] r
    return (m, r)

theorem length_of_expect {start s r : List Char} (h : expect start s = some r) :
    r.length ≤ s.length := by
  unfold expect at h
  rcases ha : Text.after start s with _ | t <;> rw [ha] at h
  · cases h
  · cases h
    rw [Text.eq_of_after ha]
    have := length_skip t
    simp; omega

theorem length_of_readWord {s r : List Char} {m : Mode} (h : readWord s = some (m, r)) :
    r.length < s.length := by
  unfold readWord at h
  rcases ha : Text.after ['"'] s with _ | t <;> rw [ha] at h
  · cases h
  · simp only [Option.bind_eq_bind, Option.bind_some] at h
    rcases hl : Json.readLiteral t with _ | ⟨u, v⟩ <;> rw [hl] at h
    · cases h
    · simp only [Option.bind_some] at h
      rcases hm : Mode.ofName? (String.ofList u) with _ | m' <;> rw [hm] at h
      · cases h
      · cases h
        have h1 := Json.length_of_readLiteral hl
        have h2 := length_skip v
        rw [Text.eq_of_after ha]
        simp; omega

theorem length_of_readMode {s r : List Char} {m : Mode} (h : readMode s = some (m, r)) :
    r.length < s.length := by
  unfold readMode at h
  split at h
  · exact length_of_readWord h
  · rename_i t ht
    have h0 := length_of_expect ht
    simp only [Option.bind_eq_bind] at h
    rcases hw : readWord t with _ | ⟨m', u⟩ <;> rw [hw] at h
    · cases h
    simp only [Option.bind_some] at h
    have h1 := length_of_readWord hw
    rcases ha : expect [':'] u with _ | v <;> rw [ha] at h
    · cases h
    simp only [Option.bind_some] at h
    have h2 := length_of_expect ha
    rcases hb : expect ['n', 'u', 'l', 'l'] v with _ | w <;> rw [hb] at h
    · cases h
    simp only [Option.bind_some] at h
    have h3 := length_of_expect hb
    rcases hc : expect ['\x7d'] w with _ | x <;> rw [hc] at h
    · cases h
    cases h
    have h4 := length_of_expect hc
    omega

/-- The modes of an array from one of them to its end, with the text behind the array. -/
def readItems (s : List Char) : Option (List Mode × List Char) :=
  match hm : readMode s with
  | none => none
  | some (m, r) =>
    match hc : expect [','] r with
    | some t =>
      have : t.length < s.length := by
        have h1 := length_of_readMode hm
        have h2 := length_of_expect hc
        omega
      (readItems t).map fun p => (m :: p.1, p.2)
    | none => (expect [']'] r).map fun t => ([m], t)
termination_by s.length

/-- Reads the stored form of some modes. Nothing but blanks may stand around the array. -/
def decode (text : String) : Option (List Mode) := do
  let r ← expect ['['] (skip text.toList)
  let (ms, r) ←
    match expect [']'] r with
    | some t => some ([], t)
    | none => readItems r
  if r.isEmpty then some ms else none

end StoredModes

end RecentLaunches
