/-
Names and values of a settings file. Values nest in brackets; names are joined by dots. Neither goes
deeper than a fixed number of levels.
-/
import RecentLaunches.Toml.Literal
import RecentLaunches.Toml.Number
import RecentLaunches.Toml.Table

namespace RecentLaunches.Toml

/-- The levels of nested values, and the names that dots can join. -/
def depthLimit : Nat := 79

/-! ## Blanks -/

/-- The text without blanks at its start. -/
def skipSpace (s : List Char) : List Char :=
  s.dropWhile isSpace

/-- The text without blanks, line ends and comments at its start. -/
def skipLines : List Char → List Char :=
  go false
where
  go (inComment : Bool) : List Char → List Char
    | [] => []
    | c :: r =>
      if inComment then if isPlain c then go true r else if c = '\n' then go false r else c :: r
      else if isSpace c || c = '\n' then go false r
      else if c = '#' then go true r
      else c :: r

/-! ## Names -/

/-- Whether a character may stand in a name without quotes. -/
def isBare (c : Char) : Bool :=
  c.isAlphanum || c = '_' || c = '-'

/-- A name, bare or quoted. -/
def name (s : List Char) : Option (String × List Char) :=
  match line s with
  | some (t, r) => some (String.ofList t, r)
  | none =>
    let t := s.takeWhile isBare
    if t.isEmpty then none else some (String.ofList t, s.drop t.length)

/-- Names joined by dots, at most a given number of them. -/
def names : Nat → List Char → Option (List String × List Char)
  | 0, _ => none
  | bound + 1, s => do
    let (first, s) ← name (skipSpace s)
    match skipSpace s with
    | '.' :: s =>
      let (rest, s) ← names bound s
      return (first :: rest, s)
    | s => return ([first], s)

/-- A key: names joined by dots. -/
def key (s : List Char) : Option (List String × List Char) :=
  names depthLimit s

/-! ## Values -/

/-- What reads a value at the start of a text. -/
abbrev ValueReader := List Char → Option (Entry × List Char)

/-- What follows the closing bracket of a list of values. A comma may stand before the bracket. -/
def afterItems (value : ValueReader) : Nat → List Char → Option (List Char)
  | 0, _ => none
  | bound + 1, s =>
    match skipLines s with
    | ']' :: s => some s
    | s => do
      let (_, s) ← value s
      match skipLines s with
      | ']' :: s => return s
      | ',' :: s => afterItems value bound s
      | _ => none

/-- A key with its value. -/
def keyed (value : ValueReader) (s : List Char) : Option ((List String × Entry) × List Char) := do
  let (k, s) ← key s
  match s with
  | '=' :: s =>
    let (v, s) ← value (skipSpace s)
    return ((k, v), s)
  | _ => none

/-- What follows the closing brace of an inline table that has some members already. It stands on
one line, and no comma stands before the brace. -/
def afterMembers (value : ValueReader) : Nat → Members → List Char → Option (List Char)
  | 0, _, _ => none
  | bound + 1, ms, s => do
    let ((k, v), s) ← keyed value s
    let ms ← ms.assignAt k v .header
    match skipSpace s with
    | '}' :: s => return s
    | ',' :: s => afterMembers value bound ms s
    | _ => none

/-- A value with at most a given number of levels below it. -/
def valueWithin (levels : Nat) (s : List Char) : Option (Entry × List Char) :=
  match s with
  | '[' :: r =>
    match levels with
    | 0 => none
    | levels + 1 => (afterItems (valueWithin levels) s.length r).map fun r => (.other, r)
  | '{' :: r =>
    match levels with
    | 0 => none
    | levels + 1 =>
      match skipSpace r with
      | '}' :: r => some (.other, r)
      | _ => (afterMembers (valueWithin levels) s.length [] r).map fun r => (.other, r)
  | '"' :: _ | '\'' :: _ => (quoted s).map fun p => (.text (String.ofList p.1), p.2)
  | _ => (unquoted s).map fun r => (.other, r)

/-- A value. -/
def value : ValueReader :=
  valueWithin depthLimit

end RecentLaunches.Toml
