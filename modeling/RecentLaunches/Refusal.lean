/-
Operations that are refused because they make no sense where they are asked for.
-/
import RecentLaunches.Mode

namespace RecentLaunches

/-- Why an operation is refused. -/
inductive Refusal
  | unknownMode (text : String)
  | storeUnavailable
  | readOnlyStore
  deriving DecidableEq, Repr

/-- What is said about a refused operation. -/
def Refusal.message (r : Refusal) : String :=
  "Invalid operation: " ++
    match r with
    | .unknownMode text => "Unknown launch mode: " ++ Text.quoted text
    | .storeUnavailable => "store unavailable"
    | .readOnlyStore => "read-only store"

end RecentLaunches
