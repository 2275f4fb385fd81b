/-
The program on a real machine. The places that a run can look at are read from the file system
first, the run itself is a function, and what it changed is written back.
-/
import Std.Time.DateTime.Timestamp
import RecentLaunches.Disk.Stored
import RecentLaunches.Program
import RecentLaunches.Timestamp.Counted

namespace RecentLaunches

namespace Machine

/-- The home directory of an account that names none. -/
def accountHome : String := "/root"

/-- The present moment. -/
def now : IO Timestamp := do
  let t ← Std.Time.Timestamp.now
  match Timestamp.ofNanos? t.toNanosecondsSinceUnixEpoch.val with
  | some t => return t
  | none => throw (IO.userError "the clock is beyond all dates")

/-- What is said about a text that cannot be read. -/
def wording : Wording where
  modes _ := "these are no modes"
  time _ := "this is no time"
  settings _ := "these are no settings"

/-- What the file system has at a location. -/
def look (l : Location) : IO (Option Node) := do
  try
    return some (.file (.ofBytes (← IO.FS.readBinFile (Disk.path l))))
  catch
    | .noFileOrDirectory .. => return none
    | .inappropriateType .. => return some .directory
    | e => throw e

/-- A disk with what the file system has on the way of some paths. -/
def observe (d : Disk) (paths : List String) : IO Disk := do
  let mut d := d
  for l in paths.flatMap d.onTheWay do
    if (d.node? l).isNone then
      if let some n ← look l then d := d.put l n
  return d

/-- Makes the file system at a location as a disk is. -/
def write (l : Location) (n : Option Node) : IO Unit :=
  match n with
  | none => IO.FS.removeFile (Disk.path l)
  | some .directory => IO.FS.createDir (Disk.path l)
  | some (.file c) => IO.FS.writeBinFile (Disk.path l) c.toBytes

/-- Runs the program on this machine. -/
def run (arguments : List String) : IO UInt32 := do
  let data ← IO.getEnv "XDG_DATA_HOME"
  let config ← IO.getEnv "XDG_CONFIG_HOME"
  let dir ← IO.getEnv "HOME"
  let home := Home.ofEnvironment (fun name =>
    if name = "HOME" then dir else if name = "XDG_DATA_HOME" then data else config) accountHome
  let here := Path.steps (← IO.currentDir).toString
  let before ←
    match Invocation.read arguments with
    | .error _ => pure { here := here }
    | .ok i =>
      let d ← observe { here := here } [Disk.path here, Program.settingsPath home i.settings]
      let s := Program.settings home i.settings d
      let kept : DatabaseFile := ⟨s.databaseIn home⟩
      observe d ([s.stateIn home, (s.historyIn home).path] ++ kept.paths)
  let (outcome, after) := Program.run wording ⟨home, ← now⟩ arguments before
  for (l, n) in before.changes after do
    write l n
  IO.print outcome.out
  IO.eprint outcome.err
  return outcome.code.toUInt32

end Machine

end RecentLaunches

/-- The command line of the program. -/
def main (arguments : List String) : IO UInt32 :=
  RecentLaunches.Machine.run arguments
