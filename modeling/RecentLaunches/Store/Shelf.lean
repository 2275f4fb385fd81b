/-
A shelf: configurations kept in memory, as a store. Mementos may have aliases, contents may count as
the same by a coarser rule than equality, and requests can be made to fail, so that every way in
which a store can answer occurs on some shelf.
-/
import RecentLaunches.Store

namespace RecentLaunches

/-- When two mementos count as the same content. The first belongs to a list entry. -/
inductive Equality
  | exact
  | copies
  | ignoreCase
  | startOf
  | never
  | always
  deriving DecidableEq, Repr

namespace Equality

/-- The mark of a copy at the end of a memento. -/
def copyMark : List Char := "-copy".toList

theorem length_of_after_copyMark {s r : List Char} (h : Text.after copyMark.reverse s = some r) :
    r.length < s.length := by
  have e : copyMark.reverse.length = 5 := rfl
  rw [Text.eq_of_after h, List.length_append, e]
  omega

/-- A reversed text without the reversed copy marks at its start. -/
def dropMarks (s : List Char) : List Char :=
  match h : Text.after copyMark.reverse s with
  | some r =>
    have := length_of_after_copyMark h
    dropMarks r
  | none => s
termination_by s.length

/-- What a memento is a copy of. -/
def copied (m : Memento) : List Char :=
  (dropMarks m.toList.reverse).reverse

/-- Whether two mementos count as the same content. -/
def holds : Equality → Memento → Memento → Bool
  | exact, a, b => a == b
  | copies, a, b => copied a == copied b
  | ignoreCase, a, b => Text.sameIgnoringCase a.toList b.toList
  | startOf, a, b => (Text.after a.toList b.toList).isSome
  | never, _, _ => false
  | always, _, _ => true

end Equality

/-- Configurations in memory, no memento twice. -/
structure Shelf where
  configurations : List Configuration := []
  equality : Equality := .exact
  aliases : List (Memento × Memento) := []
  unresolvable : List Memento := []
  readOnly : Bool := false
  /-- The mementos of the configurations whose deletion was requested, in order. -/
  deleted : List Memento := []
  deriving DecidableEq

namespace Shelf

/-- The configuration that stands under a memento. -/
def find? (s : Shelf) (m : Memento) : Option Configuration :=
  s.configurations.find? (·.memento == m)

/-- Takes the configuration of a memento away. -/
def erase (s : Shelf) (m : Memento) : Shelf :=
  { s with configurations := s.configurations.filter (·.memento != m) }

/-- Puts a configuration in the place of the one with its memento. -/
def insert (s : Shelf) (c : Configuration) : Shelf :=
  { s with configurations := (s.erase c.memento).configurations ++ [c] }

/-- The memento that a memento is an alias of, itself if it is none. -/
def target (s : Shelf) (m : Memento) : Memento :=
  ((s.aliases.find? (·.1 == m)).map (·.2)).getD m

/-- Looks a memento up. -/
def resolve (s : Shelf) (m : Memento) : Except Fault (Option Configuration) :=
  if s.unresolvable.contains m then .error (.refused .storeUnavailable)
  else .ok (s.find? (s.target m))

/-- Deletes a configuration. The request is noted even when it fails. -/
def delete (s : Shelf) (c : Configuration) : Except Fault Unit × Shelf :=
  let noted := { s with deleted := s.deleted ++ [c.memento] }
  if s.readOnly then (.error (.refused .readOnlyStore), noted) else (.ok (), noted.erase c.memento)

/-- Shelves as a store. -/
def store : Store Shelf where
  resolve := resolve
  delete := delete
  same s := s.equality.holds

/-- The mementos on the shelf in the order of their text. -/
def mementos (s : Shelf) : List Memento :=
  (s.configurations.map (·.memento)).mergeSort (fun a b => decide (a ≤ b))

end Shelf

end RecentLaunches
