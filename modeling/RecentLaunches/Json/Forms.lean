/-
The exchanged forms of modes, launches and configurations. A record is an object by the names of its
parts or an array of exactly its parts in order; parts that are not asked for are passed over in an
object.
-/
import RecentLaunches.Configuration
import RecentLaunches.Json
import RecentLaunches.Timestamp.Printer
import RecentLaunches.Timestamp.Reader

namespace RecentLaunches

/-- A mode is a word, or an object with the word as its only key and the value null. -/
def Mode.ofJson? : Json → Option Mode
  | .string s => Mode.ofName? s
  | .object [(s, .null)] => Mode.ofName? s
  | _ => none

/-- The form of a mode. -/
def Mode.toJson (m : Mode) : Json :=
  .string m.name

/-- Modes are an array. -/
def Mode.listOfJson? : Json → Option (List Mode)
  | .array items => items.mapM Mode.ofJson?
  | _ => none

/-- The form of some modes. -/
def Mode.listToJson (ms : List Mode) : Json :=
  .array (ms.map Mode.toJson)

/-- A moment is its exchanged text. -/
def Timestamp.ofJson? (j : Json) : Option Timestamp :=
  j.asString?.bind Timestamp.readExchanged

namespace Launch

/-- The parts of a launch. -/
def keys : List String := ["configuration", "mode", "label"]

/-- The launch that a value describes. -/
def ofJson? (j : Json) : Option Launch := do
  match ← j.record? keys with
  | [memento, mode, label] =>
    return ⟨← memento.asString?, ← Mode.ofJson? mode, ← label.asString?⟩
  | _ => none

/-- The form of a launch. -/
def toJson (e : Launch) : Json :=
  .object [("configuration", .string e.memento), ("mode", e.mode.toJson), ("label", .string e.label)]

end Launch

namespace Configuration

/-- The parts of a configuration. -/
def keys : List String := ["memento", "name", "modes", "private", "transient", "created_at"]

/-- The configuration that a value describes. -/
def ofJson? (j : Json) : Option Configuration := do
  match ← j.record? keys with
  | [memento, name, modes, isPrivate, isTransient, createdAt] =>
    return ⟨← memento.asString?, ← name.asString?, ← Mode.listOfJson? modes, ← isPrivate.asBool?,
      ← isTransient.asBool?, ← Timestamp.ofJson? createdAt⟩
  | _ => none

/-- The parts of a configuration in their form, the time of creation last. -/
def members (c : Configuration) : List (String × Json) :=
  [("memento", .string c.memento), ("name", .string c.name), ("modes", Mode.listToJson c.modes),
    ("private", .bool c.isPrivate), ("transient", .bool c.isTransient),
    ("created_at", .string c.createdAt.exchanged)]

/-- The form of a configuration. -/
def toJson (c : Configuration) : Json :=
  .object c.members

end Configuration

end RecentLaunches
