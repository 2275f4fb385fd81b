/-
The table of configurations as it is stored. A row holds texts and flags; a flag should be a whole
number, but what was stored there by other hands may be any value. A row is read into a configuration
only when all of its values have a meaning.
-/
import RecentLaunches.Configuration
import RecentLaunches.Database.Fault
import RecentLaunches.Database.Modes
import RecentLaunches.Timestamp.Printer
import RecentLaunches.Timestamp.Reader

namespace RecentLaunches

/-- A stored value where a flag is expected. There is always one; a number that is not whole is known
by its bits. -/
inductive Cell
  | integer (value : Int)
  | real (bits : UInt64)
  | text (value : String)
  | blob (bytes : List UInt8)
  deriving DecidableEq, Repr

namespace Cell

/-- The kind of a value. -/
def storage : Cell → StorageClass
  | integer _ => .integer
  | real _ => .real
  | text _ => .text
  | blob _ => .blob

/-- The stored form of a truth value. -/
def ofBool (b : Bool) : Cell :=
  integer (if b then 1 else 0)

/-- The truth value of a whole number: all but zero are true. Nothing else has one. -/
def flag : Cell → Option Bool
  | integer n => some (n != 0)
  | real _ | text _ | blob _ => none

theorem flag_ofBool (b : Bool) : (ofBool b).flag = some b := by cases b <;> rfl

end Cell

/-- A stored configuration. -/
structure Row where
  memento : Memento
  name : String
  modes : String
  isPrivate : Cell
  isTransient : Cell
  createdAt : String
  deriving DecidableEq, Repr

namespace Row

/-- The row that stores a configuration. -/
def ofConfiguration (c : Configuration) : Row :=
  ⟨c.memento, c.name, StoredModes.encode c.modes, .ofBool c.isPrivate, .ofBool c.isTransient,
    c.createdAt.stored⟩

/-- What a stored text means. The error tells the number of the first column, whichever the text is
in. -/
def converted {α : Type} (cause : String → Unreadable) (read : String → Option α) (text : String) :
    Except DatabaseFault α :=
  match read text with
  | some a => .ok a
  | none => .error (.conversion 0 .text (cause text))

/-- The truth value in a column. -/
def flagged (column : Nat) (name : String) (c : Cell) : Except DatabaseFault Bool :=
  match c.flag with
  | some b => .ok b
  | none => .error (.invalidType column name c.storage)

/-- The configuration that a row stores. Of several values without meaning the modes count first,
then the flags, then the time. -/
def decode (r : Row) : Except DatabaseFault Configuration := do
  let modes ← converted .modes StoredModes.decode r.modes
  let isPrivate ← flagged 3 "private" r.isPrivate
  let isTransient ← flagged 4 "transient" r.isTransient
  let createdAt ← converted .time Timestamp.readStored r.createdAt
  return ⟨r.memento, r.name, modes, isPrivate, isTransient, createdAt⟩

/-- The order in which rows are listed: by the text of the time, then by memento. -/
def le (a b : Row) : Bool :=
  decide (a.createdAt < b.createdAt) || (a.createdAt == b.createdAt && decide (a.memento ≤ b.memento))

end Row

/-- The table of configurations. A table made by the first version of the schema has no column for
the transient flag; its rows hold zero there. -/
structure Table where
  hasTransient : Bool
  rows : List Row
  deriving DecidableEq, Repr

namespace Table

/-- A table of the first version of the schema. -/
def initial : Table := ⟨false, []⟩

/-- The row of a memento. -/
def find? (t : Table) (m : Memento) : Option Row :=
  t.rows.find? (·.memento == m)

/-- The table without the row of a memento. -/
def erase (t : Table) (m : Memento) : Table :=
  { t with rows := t.rows.filter (·.memento != m) }

/-- The table with a row in the place of the one with its memento. -/
def insert (t : Table) (r : Row) : Table :=
  { t with rows := (t.erase r.memento).rows ++ [r] }

/-- The table with another name for a memento. -/
def rename (t : Table) (m : Memento) (name : String) : Table :=
  { t with rows := t.rows.map fun r => if r.memento = m then { r with name := name } else r }

/-- The rows in the order in which they are listed. -/
def sorted (t : Table) : List Row :=
  t.rows.mergeSort Row.le

/-- The table with a column for the transient flag, zero in every row. -/
def addTransient (t : Table) : Table :=
  ⟨true, t.rows.map fun r => { r with isTransient := .integer 0 }⟩

end Table

end RecentLaunches
