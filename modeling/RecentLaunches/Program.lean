/-
The program as a whole: a command line, a user, a moment and a disk lead to an exit status, two texts
and a disk.
-/
import RecentLaunches.Session

namespace RecentLaunches

/-- What a run of the program shows. -/
structure Outcome where
  code : Nat
  out : String
  err : String
  deriving DecidableEq, Repr

namespace Program

/-- What stands around a run of the program. -/
structure Context where
  home : Home
  now : Timestamp

/-- What is shown in place of a command's outcome: help succeeds, a refused command line fails with a
hint. -/
def detoured : Detour → Outcome
  | .usage text => ⟨0, text ++ "\n", ""⟩
  | .misuse m => ⟨1, "", m.message ++ "\nRun relaunch --help for more information.\n"⟩

/-- What is said about a failure. -/
def complaint (w : Wording) (f : Fault) : String :=
  "relaunch: " ++ f.message w ++ "\n"

/-- What is shown of a command that was carried out. -/
def shown (w : Wording) (d : Done) : Outcome :=
  let out := String.join (d.printed.map (· ++ "\n"))
  match d.result with
  | .ok () => ⟨0, out, ""⟩
  | .error f => ⟨1, out, complaint w f⟩

/-- The settings file of a run: the named one, or the user's own. -/
def settingsPath (home : Home) (named : Option String) : String :=
  named.getD (Settings.path home)

/-- The settings of a run. Unreadable settings count as none. -/
def settings (home : Home) (named : Option String) (disk : Disk) : Settings :=
  match Settings.loadFrom disk (settingsPath home named) with
  | .ok s => s
  | .error _ => {}

/-- Carries out what a command line asks for. -/
def invoke (c : Context) (i : Invocation) (disk : Disk) : Done × Disk :=
  match Session.start (settings c.home i.settings disk) c.home disk with
  | (.error f, disk) => (Session.failed f, disk)
  | (.ok s, _) =>
    let (done, s) := s.perform c.now i.command
    (done, s.close)

/-- Runs the program. -/
def run (w : Wording) (c : Context) (arguments : List String) (disk : Disk) : Outcome × Disk :=
  match Invocation.read arguments with
  | .error detour => (detoured detour, disk)
  | .ok i =>
    let (done, disk) := invoke c i disk
    (shown w done, disk)

end Program

end RecentLaunches
