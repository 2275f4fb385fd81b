/-
Command lines. A grammar says which options a command knows, which values it takes in order, and
which commands it leaves the rest of the line to. Arguments are taken one by one and put into a
draft; a value is looked at when it is met, and what is missing is found at the end. A word that asks
for help does not stop the reading: the usage text comes out only if nothing after the word is
wrong.
-/
import RecentLaunches.Refusal

namespace RecentLaunches

/-! ## Refusals -/

/-- Why a value is refused. -/
inductive ValueFault
  | refused (cause : Refusal)
  | repeated
  deriving DecidableEq, Repr

/-- What is said about a refused value. -/
def ValueFault.message : ValueFault → String
  | refused cause => cause.message
  | repeated => "duplicate values provided"

/-- Why a command line is refused. -/
inductive Misuse
  | unknown (argument : String)
  | noValue (option : String)
  | badOption (option value : String) (cause : ValueFault)
  | badPositional (name value : String) (cause : ValueFault)
  | afterHelp
  | missingPositionals (names : List String)
  | missingCommand (names : List String)
  deriving DecidableEq, Repr

namespace Misuse

/-- A title and names below it. -/
def listed (title : String) (names : List String) : String :=
  title ++ ":\n" ++ String.join (names.map fun n => "    " ++ n ++ "\n")

/-- What is said about a refused command line. -/
def message : Misuse → String
  | unknown argument => "Unrecognized argument: " ++ argument ++ "\n"
  | noValue option => "No value provided for option '" ++ option ++ "'.\n"
  | badOption option value cause =>
    "Error parsing option '" ++ option ++ "' with value '" ++ value ++ "': " ++ cause.message ++ "\n"
  | badPositional name value cause =>
    "Error parsing positional argument '" ++ name ++ "' with value '" ++ value ++ "': " ++
      cause.message ++ "\n"
  | afterHelp => "Trailing arguments are not allowed after `help`."
  | missingPositionals names => listed "Required positional arguments not provided" names
  | missingCommand names => listed "One of the following subcommands must be present" names

end Misuse

/-- Why a command line leads to no command: a usage text is asked for, or the line is refused. -/
inductive Detour
  | usage (text : String)
  | misuse (cause : Misuse)
  deriving DecidableEq, Repr

/-! ## Grammars -/

/-- What an option does to a draft: by itself, or with the argument after it. -/
inductive OptionRule (α : Type)
  | flag (set : α → α)
  | value (set : String → α → Except ValueFault α)

/-- A value taken by its place. -/
structure PositionalRule (α : Type) where
  name : String
  set : String → α → Except ValueFault α

/-- What a command takes. -/
structure Grammar (α : Type) where
  usage : String
  helpWords : List String
  option? : String → Option (OptionRule α)
  positionals : List (PositionalRule α) := []
  command? : String → Option (List String → α → Except Detour α) := fun _ => none

namespace Grammar

variable {α : Type}

/-- The word for help that every command but the first one knows. -/
def helpWord : String := "help"

/-- Takes the arguments of a command. `asked` tells whether help has been asked for, and `ended`
whether all options have been given; `places` are the values still to come by their place. The
rest of the line belongs to the first command that is named. -/
def take (g : Grammar α) (asked ended : Bool) (places : List (PositionalRule α)) (draft : α) :
    List String → Except Detour α
  | [] => if asked then .error (.usage g.usage) else .ok draft
  | argument :: rest =>
    if !ended && g.helpWords.contains argument then g.take true ended places draft rest
    else if !ended && argument.startsWith "-" then
      if argument = "--" then g.take asked true places draft rest
      else if asked then .error (.misuse .afterHelp)
      else
        match g.option? argument with
        | none => .error (.misuse (.unknown argument))
        | some (.flag set) => g.take asked ended places (set draft) rest
        | some (.value set) =>
          match rest with
          | [] => .error (.misuse (.noValue argument))
          | value :: rest =>
            match set value draft with
            | .error e => .error (.misuse (.badOption argument value e))
            | .ok draft => g.take asked ended places draft rest
    else
      match g.command? argument with
      | some go => go (if asked then helpWord :: rest else rest) draft
      | none =>
        match places with
        | [] => .error (.misuse (.unknown argument))
        | place :: places =>
          match place.set argument draft with
          | .error e => .error (.misuse (.badPositional place.name argument e))
          | .ok draft => g.take asked ended places draft rest

/-- Reads the arguments of a command from an empty draft. -/
def read (g : Grammar α) (start : α) (arguments : List String) : Except Detour α :=
  g.take false false g.positionals start arguments

end Grammar

end RecentLaunches
