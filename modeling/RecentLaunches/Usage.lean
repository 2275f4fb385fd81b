/-
Usage texts: what a command is for and what it takes. Every name stands in a column of its own, and
what is said about it beside it, broken between words where a line would grow too long.
-/
namespace RecentLaunches

/-- A name, and what is said about it. -/
structure UsageItem where
  name : String
  about : String
  deriving DecidableEq, Repr

/-- What can be said about a command. -/
structure Usage where
  line : String
  about : String
  positionals : List UsageItem := []
  options : List UsageItem := []
  commands : List UsageItem := []
  deriving DecidableEq, Repr

namespace Usage

/-- The column that explanations begin in. -/
def column : Nat := 20

/-- The characters of a line. -/
def width : Nat := 80

/-! ## Lines -/

/-- Words as lines of at most a given length, each as full as it can be. A line has a word, however
long. The first line has some text already. -/
def fill (limit : Nat) (line : String) : List String → List String
  | [] => [line]
  | word :: rest =>
    if limit < line.length + 1 + word.length then line :: fill limit word rest
    else fill limit (line ++ " " ++ word) rest

/-- A text as lines of at most a given length. -/
def wrap (limit : Nat) (text : String) : List String :=
  match text.splitOn " " with
  | [] => []
  | word :: rest => fill limit word rest

/-- Spaces. -/
def spaces (n : Nat) : String :=
  String.ofList (List.replicate n ' ')

/-- An item as lines: its name with the first line of its explanation, if there is room for the name,
and the other lines below it. -/
def itemLines (item : UsageItem) : List String :=
  let label := "  " ++ item.name
  let about := wrap (width - column) item.about
  let below := about.map (spaces column ++ ·)
  if label.length < column then
    match about with
    | [] => [label]
    | first :: _ => (label ++ spaces (column - label.length) ++ first) :: below.drop 1
  else label :: below

/-! ## Texts -/

/-- Items under a title. Without items there is no title. -/
def part (title : String) (items : List UsageItem) : List String :=
  if items.isEmpty then [] else "" :: (title ++ ":") :: items.flatMap itemLines

/-- The usage text of a command. -/
def text (u : Usage) : String :=
  let lines := ["Usage: " ++ u.line, "", u.about] ++ part "Positional Arguments" u.positionals ++
    part "Options" u.options ++ part "Commands" u.commands
  String.join (lines.map (· ++ "\n"))

end Usage

end RecentLaunches
