/-
Where a database is kept: a file that is opened by its name. The path that the name stands for is
simplified as text before the file is opened, so that a name and the two dots after it cancel out even
where no such directory is; a missing file is made, and one of at most one byte is a new database.
-/
import RecentLaunches.Connection
import RecentLaunches.DatabaseFile.Address

namespace RecentLaunches

/-- The file that a database is kept in. -/
structure DatabaseFile where
  name : String
  deriving DecidableEq, Repr

/-- Whether a file is that of a new database: it holds at most one byte. -/
def Content.isNewDatabase : Content → Bool
  | bytes b => b.size ≤ 1
  | database _ => false

/-- The database that a file holds. -/
def Content.database? : Content → Option Database
  | bytes b => if b.size ≤ 1 then some {} else none
  | database d => some d

namespace DatabaseFile

/-! ## Paths -/

/-- The bytes that a path may have at any time while it is simplified. -/
def passingLimit : Nat := 511

/-- The bytes that the whole path of a database may have, less room for the names of the files that
go with it. -/
def pathLimit : Nat := 504

/-- The bytes of a location written as a path. -/
def size (l : Location) : Nat :=
  l.foldl (fun n name => n + 1 + name.utf8ByteSize) 0

/-- Whether a name can be looked up at a location: not in a file, and in a directory only if it is not
too long. Where nothing is, any name is as good as missing. -/
def canFollow (d : Disk) (l : Location) (name : String) : Bool :=
  match d.node? l with
  | none => true
  | some (.file _) => false
  | some .directory => name.utf8ByteSize ≤ Disk.nameLimit

/-- Where names lead from a location as text. -/
def simplify (d : Disk) : Location → List String → Option Location
  | l, [] => some l
  | l, name :: rest =>
    if name = "." then simplify d l rest
    else if name = ".." then simplify d l.dropLast rest
    else if canFollow d l name && size (l ++ [name]) ≤ passingLimit then
      simplify d (l ++ [name]) rest
    else none

/-- The location of a path. The root is none. -/
def location? (d : Disk) (path : String) : Option Location := do
  let l ← simplify d (d.origin path) (Path.steps path)
  if l.isEmpty || pathLimit < size l then none else some l

/-! ## Opening -/

/-- The bytes of a name before its first NUL. -/
def nulPosition (name : String) : Nat :=
  (String.ofList (name.toList.takeWhile (· ≠ '\x00'))).utf8ByteSize

/-- The address that the name stands for. -/
def address (f : DatabaseFile) : Except DatabaseFault DatabaseAddress :=
  if f.name.toList.contains '\x00' then .error (.nulInPath (nulPosition f.name))
  else DatabaseAddress.ofName f.name

/-- The places that matter to a database: its file, the files beside it, and one that its permissions
are taken from. -/
def paths (f : DatabaseFile) : List String :=
  match f.address with
  | .error _ => []
  | .ok a =>
    if a.isInMemory then []
    else a.path :: a.model.toList ++
      [Companion.journal, .log, .index].map fun c => a.path ++ c.ending

/-- Opens the file at an address, or makes it: where it is, and what it holds. A directory can be
opened to be read, which then fails. -/
def openFile (f : DatabaseFile) (a : DatabaseAddress) (d : Disk) :
    Except DatabaseFault (Location × Content × Disk) :=
  match location? d a.path with
  | none => .error (.cannotOpen f.name)
  | some l =>
    if a.model.any (!d.exists? ·) then .error .ioError
    else
      match d.node? l with
      | some (.file content) => .ok (l, content, d)
      | some .directory => .error (if a.access = .readOnly then .ioError else .cannotOpen f.name)
      | none =>
        if a.access = .create && d.isDirectoryAt l.dropLast then
          .ok (l, .bytes .empty, d.put l (.file (.bytes .empty)))
        else .error (.cannotOpen f.name)

/-- What the changes of a database in a file go through, once the files beside it have been judged. -/
def settle (a : DatabaseAddress) (l : Location) (isNew : Bool) (d : Disk) :
    Except DatabaseFault Medium × Disk :=
  -- a file that nobody changes has no journal and no log
  if a.isImmutable then (.ok (.file l), d)
  else
    match d.settleJournal l isNew a.isReadOnly with
    | .error e => (.error e, d)
    | .ok d =>
      match d.openLog l isNew (a.system = .shared) with
      | .error e => (.error e, d)
      | .ok (hasLog, d) => (.ok (if hasLog then .log l else .file l), d)

/-- Connects to the database in a file. The files beside it are judged first. -/
def connectAt (a : DatabaseAddress) (l : Location) (content : Content) (d : Disk) :
    Except DatabaseFault Connection × Disk :=
  match settle a l content.isNewDatabase d with
  | (.error e, d) => (.error e, d)
  | (.ok medium, d) =>
    let c : Connection := {
      medium := medium
      -- a log without an index can only be read
      isReadOnly := a.isReadOnly || (medium = .log l && d.isDirectoryAt (Companion.index.at l))
      isWritable := medium = .log l || d.takesJournal l }
    match content.database? with
    | some database => (.ok { c with database := database }, d)
    | none => (.error .notADatabase, c.close d)

/-- Connects to a database. -/
def connect (f : DatabaseFile) (d : Disk) : Except DatabaseFault Connection × Disk :=
  match f.address with
  | .error e => (.error e, d)
  | .ok a =>
    if a.isInMemory then (.ok { medium := .memory, isReadOnly := a.isReadOnly }, d)
    else
      match f.openFile a d with
      | .error e => (.error e, d)
      | .ok (l, content, d) => connectAt a l content d

/-- Connects to a database and brings it to the current version of the schema. -/
def openOn (f : DatabaseFile) (d : Disk) : Except DatabaseFault Connection × Disk :=
  match f.connect d with
  | (.error e, d) => (.error e, d)
  | (.ok c, d) =>
    match c.migrate with
    | (.ok (), c) => (.ok c, c.flush d)
    | (.error e, c) => (.error e, c.close (c.flush d))

end DatabaseFile

end RecentLaunches
