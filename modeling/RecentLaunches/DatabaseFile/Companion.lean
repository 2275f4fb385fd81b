/-
The files beside a database. A journal tells how to undo a change that was not finished; it is written
before the change and taken away after it. A log takes changes in the place of the database, with an
index as long as the database is open. What stands at their places is judged before the database is
read for the first time: a journal or log of the database itself is never left behind, so whatever is
there undoes and adds nothing.
-/
import RecentLaunches.Disk

namespace RecentLaunches

/-- A file beside a database. -/
inductive Companion
  | journal
  | log
  | index
  deriving DecidableEq, Repr

/-- What the name of a file beside a database ends in. -/
def Companion.ending : Companion → String
  | journal => "-journal"
  | log => "-wal"
  | index => "-shm"

/-- Where a file beside the database at a location is. -/
def Companion.at (c : Companion) (l : Location) : Location :=
  l.dropLast ++ [l.getLast?.getD "" ++ c.ending]

/-- Whether a journal tells of a change that was not finished: its first byte is not zero. -/
def Content.isHot : Content → Bool
  | bytes b => (b.data[0]?.map (· != 0)).getD false
  | database _ => true

namespace Disk

/-- Whether a journal can be written beside the database at a location. -/
def takesJournal (d : Disk) (l : Location) : Bool :=
  let beside := Companion.journal.at l
  !d.isDirectoryAt beside && (beside.getLast?.getD "").utf8ByteSize ≤ nameLimit

/-- Undoes the change that a journal tells of, which takes the journal away. Beside a new database,
one without content, a journal tells of nothing and is taken away if that is possible. -/
def settleJournal (d : Disk) (l : Location) (isNew isReadOnly : Bool) : Except DatabaseFault Disk :=
  let beside := Companion.journal.at l
  match d.node? beside with
  | none => .ok d
  | some .directory => if isNew then .ok d else .error .ioError
  | some (.file c) =>
    if isNew then .ok (if c.isEmpty || isReadOnly then d else d.erase beside)
    else if c.isHot then if isReadOnly then .error .readOnly else .ok (d.erase beside)
    else .ok d

/-- Puts an index beside a database. A directory at its place stays. -/
def putIndex (d : Disk) (l : Location) : Disk :=
  let beside := Companion.index.at l
  -- no text, whatever else it holds
  if d.isDirectoryAt beside then d else d.put beside (.file (.bytes ⟨#[0xff]⟩))

/-- Opens the log beside a database; whether there is one. Beside a new database a log tells of nothing
and is taken away. -/
def openLog (d : Disk) (l : Location) (isNew canShare : Bool) : Except DatabaseFault (Bool × Disk) :=
  let beside := Companion.log.at l
  match d.node? beside with
  | none => .ok (false, d)
  | some .directory => .error (if isNew then .ioError else .cannotOpenCompanion)
  | some (.file c) =>
    if c.isEmpty then .ok (false, d)
    else if isNew then .ok (false, d.erase beside)
    else if canShare then .ok (true, d.putIndex l)
    else .error .cannotOpenCompanion

/-- Takes the log of a database and its index away. -/
def eraseLog (d : Disk) (l : Location) : Disk :=
  (d.erase (Companion.log.at l)).erase (Companion.index.at l)

end Disk

end RecentLaunches
