/-
What the name of a database stands for. A name is a path; a URI can also say how its file is to be
opened, and which of the ways of keeping files is meant. The options are looked at in order.
-/
import RecentLaunches.Database.Fault
import RecentLaunches.DatabaseFile.Uri

namespace RecentLaunches

/-- What a database is opened for: to be read, to be changed where it is, to be made where it is
missing, or to be used without a file. -/
inductive Access
  | readOnly
  | readWrite
  | create
  | inMemory
  deriving DecidableEq, Repr

/-- The access that an option asks for. -/
def Access.ofWord? (word : String) : Option Access :=
  if word = "ro" then some readOnly
  else if word = "rw" then some readWrite
  else if word = "rwc" then some create
  else if word = "memory" then some inMemory
  else none

/-- Whether an option may ask for an access after an earlier one: never for more than was left. -/
def Access.allows : Access → Access → Bool
  | readOnly, readWrite | readOnly, create | readWrite, create => false
  | _, _ => true

/-- A way of keeping files: as files that connections lock and can share a log of, as files without
such locks, or in memory. -/
inductive FileSystem
  | shared
  | unshared
  | inMemory
  deriving DecidableEq, Repr

/-- The way of keeping files that a name stands for. -/
def FileSystem.ofName? (name : String) : Option FileSystem :=
  if ["unix", "unix-excl"].contains name then some shared
  else if ["unix-none", "unix-dotfile"].contains name then some unshared
  else if name = "memdb" then some inMemory
  else none

/-- Where a database is and how it is to be opened. -/
structure DatabaseAddress where
  path : String
  access : Access := .create
  system : FileSystem := .shared
  /-- Whether the file is taken as one that nobody changes. -/
  isImmutable : Bool := false
  /-- The file whose permissions a new one gets. -/
  model : Option String := none
  deriving DecidableEq, Repr

namespace DatabaseAddress

/-- The access after one more option. -/
def accessAfter (a : Access) (option : String × String) : Except DatabaseFault Access :=
  let word := option.2
  if option.1 = "mode" then
    match Access.ofWord? word with
    | none => .error (.badAccess word)
    | some b => if a.allows b then .ok b else .error (.deniedAccess word)
  else if option.1 = "cache" && word ≠ "shared" && word ≠ "private" then .error (.badCache word)
  else .ok a

/-- The way of keeping files that options ask for: the last of them counts. -/
def systemOf (options : List (String × String)) : Except DatabaseFault FileSystem :=
  match (options.filter (·.1 == "vfs")).getLast? with
  | none => .ok .shared
  | some (_, name) =>
    match FileSystem.ofName? name with
    | some s => .ok s
    | none => .error (.badSystem name)

/-- The address that a URI writes. It can only have this machine for a host. -/
def ofUri (u : Uri) : Except DatabaseFault DatabaseAddress := do
  if u.host ≠ "" && u.host ≠ "localhost" then throw (.badHost u.host)
  let access ← u.options.foldlM accessAfter .create
  let system ← systemOf u.options
  return {
    path := u.path
    access := access
    -- files that are not locked cannot share a log either
    system := if system = .shared && u.isOn "nolock" then .unshared else system
    isImmutable := u.isOn "immutable"
    model := u.options.lookup "modeof" }

/-- The address that a name stands for. -/
def ofName (name : String) : Except DatabaseFault DatabaseAddress :=
  match Uri.read? name with
  | some u => ofUri u
  | none => .ok { path := name }

/-- Whether a database has no file by its name. -/
def isNameless (a : DatabaseAddress) : Bool :=
  a.access = .inMemory || a.path = "" || a.path = ":memory:"

/-- Whether a database has no file. -/
def isInMemory (a : DatabaseAddress) : Bool :=
  a.isNameless || a.system = .inMemory

/-- Whether a database cannot be changed. -/
def isReadOnly (a : DatabaseAddress) : Bool :=
  a.access = .readOnly || (a.isImmutable && !a.isNameless)

end DatabaseAddress

end RecentLaunches
