/-
Where a user's history and configurations are kept: what a settings file says, and the user's
directories where it says nothing.
-/
import RecentLaunches.HistoryFile
import RecentLaunches.Json
import RecentLaunches.Toml

namespace RecentLaunches

/-! ## The user's directories -/

/-- What a program is told about its user: the home directory, and the directories for data and for
settings where the user has chosen them. -/
structure Home where
  dir : String
  data : Option String := none
  config : Option String := none
  deriving DecidableEq, Repr

namespace Home

/-- The home of a user from the environment: an empty home directory counts as none, and then that of
the user's account is taken. -/
def ofEnvironment (valueOf : String → Option String) (account : String) : Home where
  dir := ((valueOf "HOME").filter (!·.isEmpty)).getD account
  data := valueOf "XDG_DATA_HOME"
  config := valueOf "XDG_CONFIG_HOME"

/-- The name of the directories that belong to this program. -/
def own : String := "relaunch"

/-- A directory that the user has chosen, if it is a full path, or else a usual one. -/
def chosen (choice : Option String) (usual : String) : String :=
  match choice with
  | some dir => if Path.isAbsolute dir then dir else usual
  | none => usual

/-- The directory for data. -/
def dataDir (h : Home) : String :=
  Path.join (chosen h.data (Path.join h.dir ".local/share")) own

/-- The directory for settings. -/
def configDir (h : Home) : String :=
  Path.join (chosen h.config (Path.join h.dir ".config")) own

end Home

/-! ## Settings -/

/-- What a user can set. -/
structure Settings where
  stateDir : Option String := none
  historyFile : String := HistoryFile.name
  databaseFile : String := "relaunch.db"
  logFilter : Option String := none
  deriving DecidableEq, Repr

namespace Settings

/-- The name of the settings file. -/
def fileName : String := "relaunch.toml"

/-- The parts of settings. -/
def keys : List String := ["state_dir", "history_file", "database_file", "log_filter"]

/-- Text under a name, or what holds without it. Nothing but text will do. -/
def textOr (ms : Toml.Members) (name : String) {α : Type} (usual : α) (set : String → α) : Option α :=
  match ms.lookup name with
  | none => some usual
  | some (.text s) => some (set s)
  | some _ => none

/-- The settings in a settings file. Other names are allowed and have no effect. -/
def ofToml? (text : String) : Option Settings := do
  let ms ← Toml.read text
  let usual : Settings := {}
  return {
    stateDir := ← textOr ms "state_dir" usual.stateDir some
    historyFile := ← textOr ms "history_file" usual.historyFile id
    databaseFile := ← textOr ms "database_file" usual.databaseFile id
    logFilter := ← textOr ms "log_filter" usual.logFilter some }

/-- The settings that an exchanged value describes: an object with some of the parts, or an array of
the first parts in order. -/
def ofJson? (j : Json) : Option Settings := do
  let members ←
    match j with
    | .object members => some members
    | .array items => if items.length ≤ keys.length then some (keys.zip items) else none
    | _ => none
  let part {α : Type} (key : String) (usual : α) (read : Json → Option α) : Option α :=
    match Json.member? key members with
    | some v => read v
    | none => some usual
  let usual : Settings := {}
  return {
    stateDir := ← part "state_dir" usual.stateDir Json.asText?
    historyFile := ← part "history_file" usual.historyFile Json.asString?
    databaseFile := ← part "database_file" usual.databaseFile Json.asString?
    logFilter := ← part "log_filter" usual.logFilter Json.asText? }

/-- The exchanged form of settings. -/
def toJson (s : Settings) : Json :=
  let text (t : Option String) : Json := (t.map Json.string).getD .null
  .object (keys.zip
    [text s.stateDir, .string s.historyFile, .string s.databaseFile, text s.logFilter])

/-- The settings in a file. No file stands for the usual settings. -/
def loadFrom (d : Disk) (path : String) : Except Fault Settings :=
  if d.exists? path then
    match d.readText path with
    | .error e => .error (.disk e)
    | .ok text =>
      match ofToml? text with
      | some s => .ok s
      | none => .error (.settings text)
  else .ok {}

/-- The user's own settings file. -/
def path (h : Home) : String :=
  Path.join h.configDir fileName

/-- The settings in the user's own settings file. -/
def load (h : Home) (d : Disk) : Except Fault Settings :=
  loadFrom d (path h)

/-! ## Places -/

/-- The directory that state is kept in. -/
def stateIn (s : Settings) (h : Home) : String :=
  s.stateDir.getD h.dataDir

/-- The file that the history is kept in. -/
def historyIn (s : Settings) (h : Home) : HistoryFile :=
  ⟨Path.join (s.stateIn h) s.historyFile⟩

/-- The file that the configurations are kept in. -/
def databaseIn (s : Settings) (h : Home) : String :=
  Path.join (s.stateIn h) s.databaseFile

end Settings

end RecentLaunches
