/-
The commands of the program and how they are written on a command line. Each command collects its
arguments in a draft of its own and becomes a command once nothing that it needs is missing.
-/
import RecentLaunches.Arguments
import RecentLaunches.Launch
import RecentLaunches.Usage

namespace RecentLaunches

/-- What the program can be asked to do. -/
inductive Command
  | add (memento : Memento) (name : String) (modes : List Mode) (isPrivate isTransient : Bool)
  | rename (memento : Memento) (name : String)
  | remove (memento : Memento)
  | record (memento : Memento) (mode : Mode) (label : Option String)
  | list (mode : Option Mode)
  | last
  | configs
  deriving DecidableEq, Repr

/-- A command, and the settings file that is named for it. -/
structure Invocation where
  settings : Option String
  command : Command
  deriving DecidableEq, Repr

namespace Command

/-! ## Values -/

/-- Text as it is. -/
def withText {α : Type} (set : String → α → α) (value : String) (draft : α) : Except ValueFault α :=
  .ok (set value draft)

/-- The word for a mode. -/
def withMode {α : Type} (set : Mode → α → α) (value : String) (draft : α) : Except ValueFault α :=
  match Mode.read value with
  | .ok m => .ok (set m draft)
  | .error text => .error (.refused (.unknownMode text))

/-- Text that can be given once. -/
def once {α : Type} (given : α → Option String) (set : String → α → α) (value : String) (draft : α) :
    Except ValueFault α :=
  if (given draft).isSome then .error .repeated else .ok (set value draft)

/-- A command made from what is there, unless some of the values it needs are missing. -/
def complete (needed : List (String × Bool)) (command : Option Command) : Except Misuse Command :=
  match command with
  | some c => .ok c
  | none => .error (.missingPositionals ((needed.filter (!·.2)).map (·.1)))

/-! ## Drafts -/

/-- What the command line of a command has given so far. -/
structure Draft where
  memento : Option String := none
  name : Option String := none
  mode : Option Mode := none
  label : Option String := none
  modes : List Mode := []
  isPrivate : Bool := false
  isTransient : Bool := false

/-- The memento by its place. -/
def memento : PositionalRule Draft :=
  ⟨"memento", withText fun v d => { d with memento := some v }⟩

/-- The name by its place. -/
def name : PositionalRule Draft :=
  ⟨"name", withText fun v d => { d with name := some v }⟩

/-- The mode by its place. -/
def mode : PositionalRule Draft :=
  ⟨"mode", withMode fun m d => { d with mode := some m }⟩

/-! ## Commands -/

/-- How a command is written. -/
structure Form where
  name : String
  usage : Usage
  options : List (String × OptionRule Draft) := []
  positionals : List (PositionalRule Draft) := []
  finish : Draft → Except Misuse Command

/-- The help option of a command in its usage text. -/
def helpItem : UsageItem :=
  ⟨"--help, help", "display usage information"⟩

/-- The memento in a usage text. -/
def mementoItem : UsageItem :=
  ⟨"memento", "memento identifying the configuration"⟩

/-- Registering a configuration. Without a mode it supports both. -/
def addForm : Form where
  name := "add"
  usage := {
    line := "relaunch add [--mode <mode...>] [--private] [--transient] [--] <memento> <name>"
    about := "register a launch configuration"
    positionals := [mementoItem, ⟨"name", "display name"⟩]
    options := [
      ⟨"--mode", "supported mode, repeatable; both modes when omitted"⟩,
      ⟨"--private", "keep launches of this configuration out of the history"⟩,
      ⟨"--transient", "delete the configuration once it leaves every history list"⟩,
      helpItem] }
  options := [
    ("--mode", .value (withMode fun m d => { d with modes := d.modes ++ [m] })),
    ("--private", .flag fun d => { d with isPrivate := true }),
    ("--transient", .flag fun d => { d with isTransient := true })]
  positionals := [memento, name]
  finish d :=
    let modes := if d.modes.isEmpty then [.run, .debug] else d.modes
    complete [("memento", d.memento.isSome), ("name", d.name.isSome)] do
      return .add (← d.memento) (← d.name) modes d.isPrivate d.isTransient

/-- Giving a configuration another name. -/
def renameForm : Form where
  name := "rename"
  usage := {
    line := "relaunch rename [--] <memento> <name>"
    about := "change the display name of a launch configuration"
    positionals := [mementoItem, ⟨"name", "new display name"⟩]
    options := [helpItem] }
  positionals := [memento, name]
  finish d :=
    complete [("memento", d.memento.isSome), ("name", d.name.isSome)] do
      return .rename (← d.memento) (← d.name)

/-- Deleting a configuration. -/
def removeForm : Form where
  name := "remove"
  usage := {
    line := "relaunch remove [--] <memento>"
    about := "delete a launch configuration and forget its launches"
    positionals := [mementoItem]
    options := [helpItem] }
  positionals := [memento]
  finish d := complete [("memento", d.memento.isSome)] do return .remove (← d.memento)

/-- Recording a launch. -/
def recordForm : Form where
  name := "record"
  usage := {
    line := "relaunch record [--label <label>] [--] <memento> <mode>"
    about := "record that a configuration was launched"
    positionals := [mementoItem, ⟨"mode", "mode the launch ran under: run or debug"⟩]
    options := [
      ⟨"--label", "label shown in the history, defaults to the configuration name"⟩, helpItem] }
  options := [("--label", .value (once (·.label) fun v d => { d with label := some v }))]
  positionals := [memento, mode]
  finish d :=
    complete [("memento", d.memento.isSome), ("mode", d.mode.isSome)] do
      return .record (← d.memento) (← d.mode) d.label

/-- Showing the history. -/
def listForm : Form where
  name := "list"
  usage := {
    line := "relaunch list [--] [<mode>]"
    about := "show launch history, most recent first"
    positionals := [⟨"mode", "only show this mode"⟩]
    options := [helpItem] }
  positionals := [mode]
  finish d := .ok (.list d.mode)

/-- Showing the latest launch. -/
def lastForm : Form where
  name := "last"
  usage := {
    line := "relaunch last"
    about := "show the most recent launch"
    options := [helpItem] }
  finish _ := .ok .last

/-- Showing the configurations. -/
def configsForm : Form where
  name := "configs"
  usage := {
    line := "relaunch configs"
    about := "list registered launch configurations"
    options := [helpItem] }
  finish _ := .ok .configs

/-- All commands, in the order in which they are shown. -/
def forms : List Form :=
  [addForm, renameForm, removeForm, recordForm, listForm, lastForm, configsForm]

/-- What a command takes. -/
def Form.grammar (f : Form) : Grammar Draft where
  usage := f.usage.text
  helpWords := ["--help", Grammar.helpWord]
  option? name := f.options.lookup name
  positionals := f.positionals

/-- Reads the arguments of a command. -/
def Form.read (f : Form) (arguments : List String) : Except Detour Command := do
  let draft ← f.grammar.read {} arguments
  (f.finish draft).mapError .misuse

end Command

namespace Invocation

/-! ## The whole line -/

/-- What a command line has given so far. -/
structure Draft where
  settings : Option String := none
  command : Option Command := none

/-- The usage text of the program. -/
def usage : Usage where
  line := "relaunch [--settings <settings>] <command> [<args>]"
  about := "Remember recently launched run and debug configurations"
  options := [
    ⟨"--settings", "settings file, defaults to relaunch.toml in the config directory"⟩,
    ⟨"-h, --help", "display usage information"⟩]
  commands := Command.forms.map fun f => ⟨f.name, f.usage.about⟩

/-- What the program takes: options, and a command with its arguments. -/
def grammar : Grammar Draft where
  usage := usage.text
  helpWords := ["-h", "--help"]
  option? name :=
    if name = "--settings" then
      some (.value (Command.once (·.settings) fun v d => { d with settings := some v }))
    else none
  command? name :=
    (Command.forms.find? (·.name == name)).map fun f rest d => do
      return { d with command := some (← f.read rest) }

/-- Reads a command line. -/
def read (arguments : List String) : Except Detour Invocation := do
  let d ← grammar.read {} arguments
  match d.command with
  | some c => return ⟨d.settings, c⟩
  | none => throw (.misuse (.missingCommand (Grammar.helpWord :: Command.forms.map (·.name))))

end Invocation

end RecentLaunches
