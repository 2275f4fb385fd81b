/-
Where a history is kept between runs: a file holding its document. No file is the normal state of a
first run; a file that cannot be read costs the history, not the run.
-/
import RecentLaunches.Disk
import RecentLaunches.Document.Printer
import RecentLaunches.Document.Reader
import RecentLaunches.Fault

namespace RecentLaunches

/-- The file that a history is kept in. -/
structure HistoryFile where
  path : String
  deriving DecidableEq, Repr

namespace HistoryFile

/-- The name of the file inside a directory for state. -/
def name : String := "launch_history.xml"

/-- The history file of a directory. -/
def inDir (dir : String) : HistoryFile :=
  ⟨Path.join dir name⟩

/-- The history that is kept, if there is a file. -/
def load (f : HistoryFile) (d : Disk) : Except Fault (Option History) :=
  match d.readText f.path with
  | .error .missing => .ok none
  | .error e => .error (.disk e)
  | .ok text => ((Document.read text).mapError .document).map some

/-- The history that is kept, or an empty one where there is none to be read. -/
def loadOrEmpty (f : HistoryFile) (d : Disk) : History :=
  match f.load d with
  | .ok (some h) => h
  | _ => History.empty

/-- Keeps a history, in the place of the one that is kept. -/
def save (f : HistoryFile) (d : Disk) (h : History) : Except Fault Unit × Disk :=
  let (r, d) := d.save f.path (.ofText (Document.render h))
  (r.mapError .disk, d)

end HistoryFile

end RecentLaunches
