/-
Why the database refuses a request: a stored value has no meaning, a statement cannot be carried out
on the tables that are there, or the file that the database is in cannot be opened or changed.
-/
namespace RecentLaunches

/-- The kinds of stored values. -/
inductive StorageClass
  | integer
  | real
  | text
  | blob
  deriving DecidableEq, Repr

/-- The name of a kind. -/
def StorageClass.name : StorageClass → String
  | integer => "Integer"
  | real => "Real"
  | text => "Text"
  | blob => "Blob"

/-- A text that has no meaning as what it is read as. -/
inductive Unreadable
  | modes (text : String)
  | time (text : String)
  deriving DecidableEq, Repr

/-- What the readers of modes, of times and of settings say about a text that they cannot read. It is
for them to choose their words. -/
structure Wording where
  modes : String → String
  time : String → String
  settings : String → String

/-- What is said about a text without meaning. -/
def Unreadable.message (w : Wording) : Unreadable → String
  | modes text => w.modes text
  | time text => w.time text

/-- Why a database request fails. The first two are about a value of one row, in a column that is
known by its number from 0. -/
inductive DatabaseFault
  | conversion (column : Nat) (stored : StorageClass) (cause : Unreadable)
  | invalidType (column : Nat) (name : String) (stored : StorageClass)
  | noTable (table : String)
  | noColumn (column : String)
  | repeatedColumn (column : String)
  | repeatedVersion
  | notADatabase
  | cannotOpen (path : String)
  | cannotOpenCompanion
  | readOnly
  | ioError
  | nulInPath (position : Nat)
  | badHost (host : String)
  | badAccess (word : String)
  | deniedAccess (word : String)
  | badCache (word : String)
  | badSystem (name : String)
  deriving DecidableEq, Repr

/-- What is said about a failed database request. -/
def DatabaseFault.message (w : Wording) (f : DatabaseFault) : String :=
  "Database error: " ++
    match f with
    | conversion column stored cause =>
      "Conversion error from type " ++ stored.name ++ " at index: " ++ toString column ++ ", " ++ cause.message w
    | invalidType column name stored =>
      "Invalid column type " ++ stored.name ++ " at index: " ++ toString column ++ ", name: " ++ name
    | noTable table => "no such table: " ++ table
    | noColumn column => "no such column: " ++ column
    | repeatedColumn column => "duplicate column name: " ++ column
    | repeatedVersion => "UNIQUE constraint failed: schema_migrations.version"
    | notADatabase => "file is not a database"
    | cannotOpen path => "unable to open database file: " ++ path
    | cannotOpenCompanion => "unable to open database file"
    | readOnly => "attempt to write a readonly database"
    | ioError => "disk I/O error"
    | nulInPath position => "nul byte found in provided data at position: " ++ toString position
    | badHost host => "invalid uri authority: " ++ host
    | badAccess word => "no such access mode: " ++ word
    | deniedAccess word => "access mode not allowed: " ++ word
    | badCache word => "no such cache mode: " ++ word
    | badSystem name => "no such vfs: " ++ name

end RecentLaunches
