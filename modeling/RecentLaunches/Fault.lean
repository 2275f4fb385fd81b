/-
Everything that can go wrong, by cause.
-/
import RecentLaunches.Database.Fault
import RecentLaunches.Disk.Fault
import RecentLaunches.Document.Fault

namespace RecentLaunches

/-- Why a request fails. -/
inductive Fault
  | notFound (memento : Memento)
  | refused (cause : Refusal)
  | document (cause : DocumentFault)
  | stopped
  | disk (cause : DiskFault)
  | settings (text : String)
  | database (cause : DatabaseFault)
  deriving DecidableEq, Repr

/-- What is said about a failed request. -/
def Fault.message (w : Wording) : Fault → String
  | notFound memento => "Not found: launch configuration " ++ memento
  | refused cause => cause.message
  | document cause => cause.message
  | stopped => "History service has stopped"
  | disk cause => cause.message
  | settings text => "Settings error: " ++ w.settings text
  | database cause => cause.message w

end RecentLaunches
