/-
An open database: what it holds, and where its changes go. A change of a database in a file is written
into the file, with a journal beside it until that is done. A change of a database with a log goes to
the log, and into the file when the database is closed.
-/
import RecentLaunches.DatabaseFile.Companion
import RecentLaunches.Store

namespace RecentLaunches

/-- Where the changes of an open database go. -/
inductive Medium
  | memory
  | file (l : Location)
  | log (l : Location)
  deriving DecidableEq, Repr

/-- An open database. -/
structure Connection where
  medium : Medium
  database : Database := {}
  isReadOnly : Bool := false
  /-- Whether the files allow changes. -/
  isWritable : Bool := true
  /-- Whether there have been changes. -/
  isChanged : Bool := false

namespace Connection

/-! ## Statements -/

/-- The connection with a changed database. Files are only asked for where there is a change. -/
def commit (c : Connection) (database : Database) : Except DatabaseFault Connection :=
  if database = c.database then .ok c
  else if c.isReadOnly then .error .readOnly
  else if c.isWritable then .ok { c with database := database, isChanged := true }
  else .error .cannotOpenCompanion

/-- Carries out a statement that can change the database. None is carried out where nothing may be
changed, even if it would change nothing. -/
def apply {α : Type} (c : Connection) (statement : Database → Except DatabaseFault (α × Database)) :
    Except DatabaseFault (α × Connection) := do
  let (a, database) ← statement c.database
  if c.isReadOnly then throw .readOnly
  return (a, ← c.commit database)

/-- Brings the schema up to date. Statements that were carried out before one that fails keep their
effect. -/
def migrate (c : Connection) : Except DatabaseFault Unit × Connection :=
  let (database, r) := c.database.migrate
  match c.commit database with
  | .ok c => (r, c)
  | .error e => (.error e, c)

/-- A connection as a store. A configuration that is gone already counts as deleted. -/
def store : Store Connection where
  resolve c m := (c.database.get m).mapError .database
  delete c gone :=
    match c.apply (·.delete gone.memento) with
    | .ok (_, c) => (.ok (), c)
    | .error e => (.error (.database e), c)

/-! ## Files -/

/-- Writes the changes. -/
def flush (c : Connection) (d : Disk) : Disk :=
  if c.isChanged then
    match c.medium with
    | .memory => d
    | .file l => (d.put l (.file (.database c.database))).erase (Companion.journal.at l)
    | .log l => d.put (Companion.log.at l) (.file (.database c.database))
  else d

/-- Ends a connection. The changes in a log are brought into the file, and the log is taken away. That
is left undone where something else has been written over the log, and the changes are lost; what has
been written over the database itself stays. -/
def close (c : Connection) (d : Disk) : Disk :=
  match c.medium with
  | .log l =>
    if c.isReadOnly then d
    else if c.isChanged then
      match d.node? (Companion.log.at l), d.node? l with
      | some (.file (.database database)), some (.file (.database _)) =>
        (d.put l (.file (.database database))).eraseLog l
      | some (.file (.database _)), _ => d.eraseLog l
      | _, _ => d
    else d.eraseLog l
  | _ => d

end Connection

end RecentLaunches
