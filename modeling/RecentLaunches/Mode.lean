/-
The two modes a configuration is launched under. Each mode has its own list of recent launches.
-/
import RecentLaunches.Text.Blank
import RecentLaunches.Text.Quoted

namespace RecentLaunches

/-- How a configuration is launched. -/
inductive Mode
  | run
  | debug
  deriving DecidableEq, Repr

namespace Mode

/-- The word for a mode in documents, in stored values and on the command line. -/
def name : Mode → String
  | run => "run"
  | debug => "debug"

/-- The mode whose list also counts before an evicted configuration may go. -/
def other : Mode → Mode
  | run => debug
  | debug => run

/-- Both modes, in the order in which a history is written and checked. -/
def all : List Mode := [debug, run]

/-- The text a mode word is compared by: white space at the ends and the case of ASCII letters do
not matter. -/
def normal (s : String) : String :=
  String.ofList ((Text.trim s.toList).map Char.toLower)

/-- The mode a word stands for. The word is exact. -/
def ofName? (s : String) : Option Mode :=
  if s = "run" then some run
  else if s = "debug" then some debug
  else none

/-- Reads a mode as a person writes it; a text that is no mode is given back in its normal form. -/
def read (s : String) : Except String Mode :=
  match ofName? (normal s) with
  | some m => .ok m
  | none => .error (normal s)

theorem mem_all (m : Mode) : m ∈ all := by cases m <;> decide

theorem ofName?_name (m : Mode) : ofName? m.name = some m := by cases m <;> decide

theorem ofName?_eq_some {s : String} {m : Mode} : ofName? s = some m ↔ s = m.name := by
  unfold ofName?
  cases m <;> split <;> simp_all [name]

end Mode

end RecentLaunches
