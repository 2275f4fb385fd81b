/-
Disks and the bytes of files: how a file is stored, and which places of a disk have changed. A
database is stored as the text of its image.
-/
import RecentLaunches.Database.Image
import RecentLaunches.Disk

namespace RecentLaunches

namespace Content

/-- What some bytes hold: a database if they are the image of one. -/
def ofBytes (b : ByteArray) : Content :=
  match (String.fromUTF8? b).bind Image.read with
  | some d => .database d
  | none => .bytes b

/-- The bytes that a file is stored as. -/
def toBytes : Content → ByteArray
  | bytes b => b
  | database d => (Image.write d).toUTF8

/-- A database is found again in its bytes. -/
theorem ofBytes_toBytes_database (d : Database) : ofBytes (database d).toBytes = database d := by
  have h : String.fromUTF8? (Image.write d).toUTF8 = some (Image.write d) := text?_ofText _
  simp only [ofBytes, toBytes, h, Option.bind_some, Image.read_write]

end Content

namespace Disk

/-- The absolute path of a location. -/
def path (l : Location) : String :=
  "/" ++ "/".intercalate l

/-- The locations that names lead through as text. -/
def through : Location → List String → List Location
  | _, [] => []
  | l, name :: rest =>
    if name = "." then through l rest
    else if name = ".." then through l.dropLast rest
    else (l ++ [name]) :: through (l ++ [name]) rest

/-- The locations that a path leads through. -/
def onTheWay (d : Disk) (p : String) : List Location :=
  through [] (if Path.isAbsolute p then Path.steps p else d.here ++ Path.steps p)

/-- Whether something else is at a location now. Files are compared by their bytes. -/
def differs : Option Node → Node → Bool
  | some .directory, .directory => false
  | some (.file a), .file b => a.toBytes != b.toBytes
  | _, _ => true

/-- What has changed on a disk: what is gone, and what is new or different, directories before what
is in them. -/
def changes (before after : Disk) : List (Location × Option Node) :=
  let gone := before.nodes.filter fun n => (after.node? n.1).isNone
  let found := (after.nodes.filter fun n => differs (before.node? n.1) n.2).mergeSort fun a b =>
    a.1.length ≤ b.1.length
  gone.map (fun n => (n.1, none)) ++ found.map fun n => (n.1, some n.2)

end Disk

end RecentLaunches
