/-
Files and directories. A disk is a table from locations to what is there, and the directory one is
in. A path is followed name by name: a directory has to be at every place that a name is looked up
in. Requests with several effects say what they led to even when they fail.
-/
import RecentLaunches.Database
import RecentLaunches.Disk.Fault
import RecentLaunches.Disk.Path

namespace RecentLaunches

/-- What a file holds. A database is kept as what it means; its bytes are no text. -/
inductive Content
  | bytes (b : ByteArray)
  | database (d : Database)

/-- What is at a location. -/
inductive Node
  | directory
  | file (c : Content)

/-- A place on a disk: the names that lead to it from the root. -/
abbrev Location := List String

/-- A disk, and the directory that paths lead from. -/
structure Disk where
  here : Location
  nodes : List (Location × Node) := []

/-- The text as a file. -/
def Content.ofText (s : String) : Content :=
  .bytes s.toUTF8

/-- The text of a file, if its bytes are text. -/
def Content.text? : Content → Option String
  | bytes b => String.fromUTF8? b
  | database _ => none

/-- Whether a file holds nothing. -/
def Content.isEmpty : Content → Bool
  | bytes b => b.isEmpty
  | database _ => false

/-- A text that was put into a file is read from it. -/
theorem Content.text?_ofText (s : String) : (ofText s).text? = some s := by
  show String.fromUTF8? s.toUTF8 = some s
  rw [String.fromUTF8?, dif_pos (show s.toUTF8.IsValidUTF8 from s.isValidUTF8)]
  rfl

namespace Disk

/-! ## Locations -/

/-- What is at a location. The root is a directory. -/
def node? (d : Disk) (l : Location) : Option Node :=
  if l.isEmpty then some .directory else d.nodes.lookup l

/-- Puts something at a location in the place of what is there. -/
def put (d : Disk) (l : Location) (n : Node) : Disk :=
  { d with nodes := (l, n) :: d.nodes.filter (·.1 != l) }

/-- Takes away what is at a location. -/
def erase (d : Disk) (l : Location) : Disk :=
  { d with nodes := d.nodes.filter (·.1 != l) }

/-- Whether a directory is at a location. -/
def isDirectoryAt (d : Disk) (l : Location) : Bool :=
  match d.node? l with
  | some .directory => true
  | _ => false

theorem node?_put_self (d : Disk) {l : Location} (n : Node) (h : l ≠ []) :
    (d.put l n).node? l = some n := by
  cases l with
  | nil => exact absurd rfl h
  | cons a l => simp [node?, put]

theorem node?_erase_self (d : Disk) {l : Location} (h : l ≠ []) : (d.erase l).node? l = none := by
  cases l with
  | nil => exact absurd rfl h
  | cons a l =>
    refine List.lookup_eq_none_iff.2 fun n hn => ?_
    have hne : n.1 ≠ a :: l := bne_iff_ne.1 (List.mem_filter.1 hn).2
    simpa using hne.symm

/-! ## Following a path -/

/-- The bytes that a name can have. -/
def nameLimit : Nat := 255

/-- The bytes that a path can have. -/
def pathLimit : Nat := 4095

/-- Where names lead from a location. What the last name stands for need not be there. -/
def follow (d : Disk) : Location → List String → Except DiskFault Location
  | l, [] => .ok l
  | l, name :: rest =>
    match d.node? l with
    | none => .error .missing
    | some (.file _) => .error .notDirectory
    | some .directory =>
      if name = "." then d.follow l rest
      else if name = ".." then d.follow l.dropLast rest
      else if nameLimit < name.utf8ByteSize then .error .nameTooLong
      else d.follow (l ++ [name]) rest

/-- Where a path starts. -/
def origin (d : Disk) (p : String) : Location :=
  if Path.isAbsolute p then [] else d.here

/-- Where names lead from the start of a path, once the path itself is sound. -/
def locate (d : Disk) (p : String) (names : List String) : Except DiskFault Location :=
  if p.toList.contains '\x00' then .error .nulInPath
  else if p.isEmpty then .error .missing
  else if pathLimit < p.utf8ByteSize then .error .nameTooLong
  else d.follow (d.origin p) names

/-- What a path leads to, and where. -/
def find (d : Disk) (p : String) : Except DiskFault (Location × Node) := do
  let l ← d.locate p (if Path.isClosed p then Path.steps p ++ ["."] else Path.steps p)
  match d.node? l with
  | some n => return (l, n)
  | none => throw .missing

/-- Whether a path leads to anything. -/
def exists? (d : Disk) (p : String) : Bool :=
  match d.find p with
  | .ok _ => true
  | .error _ => false

/-- Whether a path leads to a directory. -/
def isDirectory (d : Disk) (p : String) : Bool :=
  match d.find p with
  | .ok (_, .directory) => true
  | _ => false

/-! ## Reading -/

/-- The text of a file. -/
def readText (d : Disk) (p : String) : Except DiskFault String := do
  match (← d.find p).2 with
  | .directory => throw .isDirectory
  | .file c =>
    match c.text? with
    | some s => return s
    | none => throw .notText

/-- The names in a directory, in order. -/
def names (d : Disk) (p : String) : Except DiskFault (List String) := do
  match ← d.find p with
  | (_, .file _) => throw .notDirectory
  | (l, .directory) =>
    let found := d.nodes.filterMap fun n =>
      if n.1.dropLast = l then n.1.getLast? else none
    return found.mergeSort fun a b => decide (a ≤ b)

/-! ## Writing -/

/-- Writes a file in the place of the one that is there. -/
def write (d : Disk) (p : String) (c : Content) : Except DiskFault Disk := do
  if Path.isClosed p then
    let _ ← d.locate p ((Path.steps p).dropLast ++ ["."])
    throw .isDirectory
  else
    let l ← d.locate p (Path.steps p)
    match d.node? l with
    | some .directory => throw .isDirectory
    | _ => return d.put l (.file c)

/-- Makes a directory below one that is there. -/
def makeDir (d : Disk) (p : String) : Except DiskFault Disk := do
  let l ← d.locate p (Path.steps p)
  match d.node? l with
  | some _ => throw .present
  | none => return d.put l .directory

/-- Makes a directory, first those above it as far as they are missing. A directory that is there
already is as good. -/
def makeAlong (d : Disk) : List String → Except DiskFault Unit × Disk
  | [] => (.ok (), d)
  | p :: above =>
    match d.makeDir p with
    | .ok d => (.ok (), d)
    | .error .missing =>
      match d.makeAlong above with
      | (.error e, d) => (.error e, d)
      | (.ok (), d) =>
        match d.makeDir p with
        | .ok d => (.ok (), d)
        | .error e => (if d.isDirectory p then .ok () else .error e, d)
    | .error e => (if d.isDirectory p then .ok () else .error e, d)

/-- Makes a directory with all directories above it. -/
def makeDirs (d : Disk) (p : String) : Except DiskFault Unit × Disk :=
  d.makeAlong (Path.lineage p)

/-- Writes a file, with all directories above it. -/
def save (d : Disk) (p : String) (c : Content) : Except DiskFault Unit × Disk :=
  let (made, d) :=
    match Path.parent? p with
    | some above => d.makeDirs above
    | none => (.ok (), d)
  match made with
  | .error e => (.error e, d)
  | .ok () =>
    match d.write p c with
    | .ok d => (.ok (), d)
    | .error e => (.error e, d)

/-- Removes a file, or a directory with everything in it. -/
def remove (d : Disk) (p : String) : Except DiskFault Disk := do
  let (l, _) ← d.find p
  return { d with nodes := d.nodes.filter fun n => !l.isPrefixOf n.1 }

end Disk

end RecentLaunches
