/-
Launch configurations: what can be launched, under which modes, and whether its launches are kept.
Configurations live in a store; the history only holds their mementos.
-/
import RecentLaunches.Launch
import RecentLaunches.Timestamp

namespace RecentLaunches

/-- A launch configuration. Launches of a private one are not remembered; a transient one goes
once no list remembers it. -/
structure Configuration where
  memento : Memento
  name : String
  modes : List Mode
  isPrivate : Bool
  isTransient : Bool
  createdAt : Timestamp
  deriving DecidableEq

namespace Configuration

/-- A configuration made now, neither private nor transient. -/
def new (memento : Memento) (name : String) (modes : List Mode) (now : Timestamp) : Configuration :=
  ⟨memento, name, modes, false, false, now⟩

/-- Whether a configuration can be launched under a mode. -/
def supports (c : Configuration) (m : Mode) : Bool :=
  c.modes.contains m

/-- The configuration kept out of the history. -/
def asPrivate (c : Configuration) : Configuration :=
  { c with isPrivate := true }

/-- The configuration that goes with its last launch. -/
def asTransient (c : Configuration) : Configuration :=
  { c with isTransient := true }

end Configuration

end RecentLaunches
