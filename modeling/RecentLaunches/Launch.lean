/-
A remembered launch: which configuration, under which mode, and the label it was shown with.
-/
import RecentLaunches.Mode

namespace RecentLaunches

/-- The text that identifies a configuration. -/
abbrev Memento := String

/-- One launch. The label is the one of the moment of the launch and does not follow a later
renaming of the configuration. -/
structure Launch where
  memento : Memento
  mode : Mode
  label : String
  deriving DecidableEq, Repr

end RecentLaunches
