/-
The attributes of an element, read from the text of its tag. Positions are byte positions in that
text. The attributes before a fault come first, then the fault: a reader that stops at a bad value
never sees a fault behind it.
-/
import RecentLaunches.Markup.Token

namespace RecentLaunches.Markup

/-- One attribute as it is written; the value still holds its references. -/
structure Attribute where
  key : List Char
  value : List Char
  deriving DecidableEq, Repr

/-- Why the attributes of a tag break off, with the position. -/
inductive AttributeFault
  | missingEquals (position : Nat)
  | missingValue (position : Nat)
  | unquoted (position : Nat)
  | repeated (position previous : Nat)
  | openQuote (position : Nat) (quote : Char)
  deriving DecidableEq, Repr

/-- The attributes of a tag up to its end or their first fault. -/
structure Attributes where
  list : List Attribute
  fault : Option AttributeFault
  deriving DecidableEq, Repr

namespace Attributes

/-- Attributes that break off at a fault. -/
def stop (fault : AttributeFault) : Attributes :=
  ⟨[], some fault⟩

/-- Whether a character ends a key. -/
def endsKey (c : Char) : Bool :=
  c == '=' || isBlank c

/-- The text after a key and its `=`, or the text left where the `=` is missing. -/
def afterEquals (s : List Char) : Except (List Char) (List Char) :=
  match s.dropWhile isBlank with
  | '=' :: r => .ok r
  | r => .error r

/-- A quoted value and the text after it. -/
def value (quote : Char) (s : List Char) : Option (List Char × List Char) :=
  match s.dropWhile (· != quote) with
  | [] => none
  | _ :: r => some (s.takeWhile (· != quote), r)

theorem length_of_afterEquals {s r : List Char} (h : afterEquals s = .ok r) :
    r.length < s.length := by
  have hd := (List.dropWhile_sublist isBlank (l := s)).length_le
  unfold afterEquals at h
  split at h
  · rename_i r' hs
    cases h
    rw [hs] at hd
    simp at hd; omega
  · cases h

theorem length_of_value {q : Char} {s v r : List Char} (h : value q s = some (v, r)) :
    r.length < s.length := by
  have hd := (List.dropWhile_sublist (· != q) (l := s)).length_le
  unfold value at h
  split at h
  · cases h
  · rename_i c r' hs
    cases h
    rw [hs] at hd
    simp at hd; omega

/-- Reads attributes from the rest of a tag. `total` is the size of the tag, and `seen` the keys
met so far with their positions. The first character of a key is taken whatever it is. -/
def scanFrom (total : Nat) (seen : List (List Char × Nat)) (s : List Char) : Attributes :=
  match hs : s.dropWhile isBlank with
  | [] => ⟨[], none⟩
  | c :: r =>
    let position := total - Text.size (c :: r)
    let key := c :: r.takeWhile (!endsKey ·)
    match he : afterEquals (r.dropWhile (!endsKey ·)) with
    | .error left => stop (.missingEquals (total - Text.size left))
    | .ok afterKey =>
      match seen.find? (·.1 == key) with
      | some earlier => stop (.repeated position earlier.2)
      | none =>
        match hv : afterKey.dropWhile isBlank with
        | [] => stop (.missingValue total)
        | quote :: t =>
          if quote = '"' ∨ quote = '\'' then
            match hq : value quote t with
            | none => stop (.openQuote total quote)
            | some (text, rest) =>
              -- the rest follows a blank run, a key, its `=`, another blank run and the quotes
              have : rest.length < s.length := by
                have h1 := length_of_value hq
                have h2 := (List.dropWhile_sublist isBlank (l := afterKey)).length_le
                have h3 := length_of_afterEquals he
                have h4 := (List.dropWhile_sublist (!endsKey ·) (l := r)).length_le
                have h5 := (List.dropWhile_sublist isBlank (l := s)).length_le
                rw [hv] at h2
                rw [hs] at h5
                simp at h2 h5
                omega
              let others := scanFrom total ((key, position) :: seen) rest
              { others with list := ⟨key, text⟩ :: others.list }
          else stop (.unquoted (total - Text.size (quote :: t)))
termination_by s.length

/-- The attributes of a tag, which follow its name. -/
def ofTag (content : List Char) : Attributes :=
  scanFrom (Text.size content) [] (content.dropWhile (!isBlank ·))

end Attributes

end RecentLaunches.Markup
