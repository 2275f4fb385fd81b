/-
The rules of a list of recent launches: it is not too long, has no memento twice, and holds
launches of its own mode only. `Recent.WF` states them; `Recent.violation?` looks for the first
breach from the head of the list.
-/
import RecentLaunches.Recent

namespace RecentLaunches

/-- A breach of the rules by the list of a mode. -/
inductive Violation
  | tooLong (mode : Mode) (length : Nat)
  | repeated (mode : Mode) (memento : Memento)
  | foreign (mode : Mode) (entry : Launch)
  deriving DecidableEq, Repr

/-- What is said about a breach. -/
def Violation.message : Violation → String
  | tooLong m n =>
    m.name ++ " history has " ++ toString n ++ " entries, limit is " ++ toString Recent.capacity
  | repeated m memento => m.name ++ " history lists " ++ memento ++ " twice"
  | foreign m e =>
    m.name ++ " history holds a " ++ e.mode.name ++ " entry for " ++ e.memento

namespace Recent

/-- The rules for the list of a mode. -/
structure WF (mode : Mode) (l : Recent) : Prop where
  bounded : l.length ≤ capacity
  distinct : (mementos l).Nodup
  ownMode : ∀ e ∈ l, e.mode = mode

/-- The first entry that repeats a memento or has another mode; a repeated memento counts first. -/
def firstBreach? (mode : Mode) (seen : List Memento) : Recent → Option Violation
  | [] => none
  | e :: l =>
    if seen.contains e.memento then some (.repeated mode e.memento)
    else if e.mode ≠ mode then some (.foreign mode e)
    else firstBreach? mode (e.memento :: seen) l

/-- The first breach of the rules: the length counts before any entry. -/
def violation? (mode : Mode) (l : Recent) : Option Violation :=
  if capacity < l.length then some (.tooLong mode l.length) else firstBreach? mode [] l

end Recent

end RecentLaunches
