/-
Settings files: lines with a key and its value, headers of tables and of elements of lists of
tables, comments and blank lines. Reading gives what stands at the top of the file, or nothing where
any part of the file is malformed.
-/
import RecentLaunches.Toml.Value

namespace RecentLaunches.Toml

/-! ## Lines -/

/-- A line that says something. -/
inductive Statement
  | keyed (key : List String) (value : Entry)
  | table (path : List String)
  | element (path : List String)

/-- What follows the end of a line. Blanks and a comment may stand before it. -/
def lineEnd (s : List Char) : Option (List Char) :=
  let s :=
    match skipSpace s with
    | '#' :: r => r.dropWhile isPlain
    | s => s
  match s with
  | [] => some []
  | '\n' :: r => some r
  | _ => none

/-- The statement of a line. -/
def statement (s : List Char) : Option (Statement × List Char) :=
  match s with
  | '[' :: '[' :: s => do
    let (path, s) ← key s
    match s with
    | ']' :: ']' :: s => return (.element path, ← lineEnd s)
    | _ => none
  | '[' :: s => do
    let (path, s) ← key s
    match s with
    | ']' :: s => return (.table path, ← lineEnd s)
    | _ => none
  | _ => do
    let ((k, v), s) ← keyed value s
    return (.keyed k v, ← lineEnd s)

/-- The statements of as many lines as a bound allows. -/
def statementsWithin : Nat → List Char → Option (List Statement)
  | 0, s => if s.isEmpty then some [] else none
  | bound + 1, s =>
    match skipSpace s with
    | [] => some []
    | '\n' :: s => statementsWithin bound s
    | '#' :: s => do
      statementsWithin bound (← lineEnd ('#' :: s))
    | s => do
      let (first, s) ← statement s
      return first :: (← statementsWithin bound s)

/-- The text with every line end as a line feed. -/
def evenLines : List Char → List Char
  | '\r' :: '\n' :: r => '\n' :: evenLines r
  | c :: r => c :: evenLines r
  | [] => []

/-- The statements of a file, which may begin with a byte order mark. -/
def statements (text : String) : Option (List Statement) :=
  let s := evenLines text.toList
  let s :=
    match s with
    | '\ufeff' :: r => r
    | _ => s
  statementsWithin s.length s

/-! ## Meaning -/

/-- What is at the top of a file, and the path of the table that lines add to. -/
structure Reading where
  top : Members := []
  path : List String := []

/-- What a statement makes of the tables so far. -/
def Reading.add (r : Reading) : Statement → Option Reading
  | .keyed k v => do
    return { r with top := ← Members.within false (Members.assignAt k v) r.path .header r.top }
  | .table path => do
    return ⟨← Members.openAt Members.openTable path r.top, path⟩
  | .element path => do
    return ⟨← Members.openAt Members.openElement path r.top, path⟩

/-- What stands at the top of a file. -/
def read (text : String) : Option Members := do
  let r ← (← statements text).foldlM Reading.add {}
  return r.top

end RecentLaunches.Toml
