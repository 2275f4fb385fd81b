/-
Lists of recent launches, the most recent first. A list holds at most `capacity` launches; a new
launch takes the place of one of the same configuration, and pushes the oldest out of a full list.
When two configurations count as the same is given from outside, as a relation between an entry of
the list and the launched configuration, in this order.
-/
import RecentLaunches.Launch

namespace RecentLaunches

/-- Launches of one mode, the most recent first. -/
abbrev Recent := List Launch

namespace Recent

/-- The launches a list can hold. -/
def capacity : Nat := 5

/-- When an entry of a list counts as a launch of a given configuration. -/
abbrev Sameness := Memento → Memento → Bool

/-- The mementos of a list. -/
def mementos (l : Recent) : List Memento :=
  l.map (·.memento)

/-- The place of the first entry that counts as a launch of a configuration. -/
def position? (same : Sameness) (m : Memento) (l : Recent) : Option Nat :=
  l.findIdx? fun e => same e.memento m

/-- Whether an entry counts as a launch of a configuration. -/
def remembers (same : Sameness) (m : Memento) (l : Recent) : Bool :=
  l.any fun e => same e.memento m

/-! ## Adding -/

/-- A list after a launch, with the entry that fell off its end. -/
structure Promotion where
  launches : Recent
  evicted : Option Launch
  deriving DecidableEq, Repr

/-- A list cut to its capacity when it holds one launch too many. -/
def bounded (l : Recent) : Promotion :=
  if capacity < l.length then ⟨l.dropLast, l.getLast?⟩ else ⟨l, none⟩

/-- Puts a launch at the head. An entry of the same configuration makes room for it, unless it
stands at the head already: then the list stays as it is. -/
def promote (same : Sameness) (e : Launch) (l : Recent) : Promotion :=
  match position? same e.memento l with
  | some 0 => ⟨l, none⟩
  | some (i + 1) => bounded (e :: l.eraseIdx (i + 1))
  | none => bounded (e :: l)

/-- Puts an older launch at the end, unless the list has its memento or is full. -/
def append (l : Recent) (e : Launch) : Recent :=
  if (mementos l).contains e.memento || capacity ≤ l.length then l else l ++ [e]

end Recent

end RecentLaunches
