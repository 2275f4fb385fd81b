/-
A database as the text of a file: one record a line, a tabulator after every field, and a backslash
before what would otherwise end a field. The first record tells that the file is a database. Main
statement: reading what was written gives the database back.
-/
import Std.Data.String.ToInt
import RecentLaunches.Database.Schema

namespace RecentLaunches

namespace Image

/-- A record: its fields. -/
abbrev Record := List (List Char)

/-! ## Records as text -/

/-- A character inside a field. -/
def writeChar (c : Char) : List Char :=
  if c = '\\' then ['\\', '\\']
  else if c = '\t' then ['\\', 't']
  else if c = '\n' then ['\\', 'n']
  else [c]

/-- A field with its end. -/
def writeField (f : List Char) : List Char :=
  f.flatMap writeChar ++ ['\t']

/-- A record with its end. -/
def writeRecord (r : Record) : List Char :=
  r.flatMap writeField ++ ['\n']

/-- The character that stands after a backslash for another. -/
def escaped? (c : Char) : Option Char :=
  if c = '\\' then some '\\'
  else if c = 't' then some '\t'
  else if c = 'n' then some '\n'
  else none

/-- A character before the first field that follows in its record. -/
def push (c : Char) (p : Record × List Record) : Option (Record × List Record) :=
  match p.1 with
  | f :: fs => some ((c :: f) :: fs, p.2)
  | [] => none

/-- The fields up to the end of a record, and the records after it. -/
def readRecords : List Char → Option (Record × List Record)
  | [] => none
  | c :: r =>
    if c = '\n' then
      if r.isEmpty then some ([], []) else (readRecords r).map fun p => ([], p.1 :: p.2)
    else if c = '\t' then (readRecords r).map fun p => ([] :: p.1, p.2)
    else if c = '\\' then
      match r with
      | d :: r => do push (← escaped? d) (← readRecords r)
      | [] => none
    else do push c (← readRecords r)

theorem readRecords_writeChar (c : Char) (rest : List Char) :
    readRecords (writeChar c ++ rest) = (readRecords rest).bind (push c) := by
  unfold writeChar
  split
  · rename_i h; subst h; simp [readRecords, escaped?]
  · split
    · rename_i h; subst h; simp [readRecords, escaped?]
    · split
      · rename_i h; subst h; simp [readRecords, escaped?]
      · rename_i h1 h2 h3
        rw [List.singleton_append, readRecords.eq_def]
        simp only [h1, h2, h3, if_false]
        cases readRecords rest <;> rfl

theorem readRecords_writeField (f : List Char) (rest : List Char) :
    readRecords (writeField f ++ rest) = (readRecords rest).map fun p => (f :: p.1, p.2) := by
  induction f with
  | nil =>
    rw [writeField, List.flatMap_nil, List.nil_append, List.singleton_append, readRecords.eq_def]
    simp
  | cons c f ih =>
    have h : writeField (c :: f) ++ rest = writeChar c ++ (writeField f ++ rest) := by
      simp [writeField]
    rw [h, readRecords_writeChar, ih]
    cases readRecords rest <;> simp [push]

theorem readRecords_writeFields (fs : Record) (rest : List Char) :
    readRecords (fs.flatMap writeField ++ rest) = (readRecords rest).map fun p => (fs ++ p.1, p.2) := by
  induction fs with
  | nil => simp
  | cons f fs ih =>
    rw [List.flatMap_cons, List.append_assoc, readRecords_writeField, ih]
    cases readRecords rest <;> simp

/-- Records are read back as they were written. -/
theorem readRecords_write (r : Record) (rs : List Record) :
    readRecords ((r :: rs).flatMap writeRecord) = some (r, rs) := by
  induction rs generalizing r with
  | nil => simp [writeRecord, readRecords_writeFields, readRecords]
  | cons s rs ih =>
    -- the fields of the first record, its end, and the records after it
    have h : ((r :: s :: rs).flatMap writeRecord) =
        r.flatMap writeField ++ ('\n' :: (s :: rs).flatMap writeRecord) := by
      simp [writeRecord]
    have hne : ((s :: rs).flatMap writeRecord).isEmpty = false := by
      simp [writeRecord]
    have hr : readRecords ('\n' :: (s :: rs).flatMap writeRecord) = some ([], s :: rs) := by
      rw [readRecords.eq_def]
      simp only [if_true, hne, ih s]
      rfl
    rw [h, readRecords_writeFields, hr]
    simp

/-! ## Databases as records -/

/-- The record that a file begins with. -/
def head : Record := ["relaunch".toList, "1".toList]

/-- A cell as a field: its kind before its value. -/
def cellField : Cell → List Char
  | .integer n => '#' :: n.repr.toList
  | .real bits => '~' :: bits.toNat.repr.toList
  | .text s => '$' :: s.toList
  | .blob bytes => '%' :: bytes.map Char.ofUInt8

/-- The cell of a field. -/
def cell? : List Char → Option Cell
  | [] => none
  | c :: r =>
    if c = '#' then (String.ofList r).toInt?.map .integer
    else if c = '~' then (String.ofList r).toNat?.map fun n => .real (.ofNat n)
    else if c = '$' then some (.text (String.ofList r))
    else if c = '%' then some (.blob (r.map Char.toUInt8))
    else none

theorem cell?_cellField (c : Cell) : cell? (cellField c) = some c := by
  cases c with
  | integer n => simp [cell?, cellField, Int.toInt?_repr]
  | real bits =>
    show ((String.ofList bits.toNat.repr.toList).toNat?.map fun n => Cell.real (.ofNat n)) = some (.real bits)
    rw [String.ofList_toList, Nat.toNat?_repr, Option.map_some, UInt64.ofNat_toNat]
  | text s => simp [cell?, cellField]
  | blob bytes =>
    have hbytes : Char.toUInt8 ∘ Char.ofUInt8 = id := funext UInt8.toUInt8_toUInt32
    simp [cell?, cellField, hbytes]

/-- What one record adds to a database. -/
inductive Part
  | records
  | applied (record : Applied)
  | table (hasTransient : Bool)
  | row (row : Row)
  | index

/-- The record of a part. -/
def Part.record : Part → Record
  | records => ["migrations".toList]
  | applied a => ["migration".toList, a.version.repr.toList, a.description.toList]
  | table false => ["table".toList]
  | table true => ["table with flags".toList]
  | row r =>
    ["row".toList, r.memento.toList, r.name.toList, r.modes.toList, cellField r.isPrivate,
      cellField r.isTransient, r.createdAt.toList]
  | index => ["index".toList]

/-- The part of a record. -/
def Part.ofRecord? (r : Record) : Option Part :=
  match r with
  | [kind] =>
    if kind = "migrations".toList then some .records
    else if kind = "table".toList then some (.table false)
    else if kind = "table with flags".toList then some (.table true)
    else if kind = "index".toList then some .index
    else none
  | [_, version, description] => do
    return .applied ⟨← (String.ofList version).toInt?, String.ofList description⟩
  | [_, memento, name, modes, isPrivate, isTransient, createdAt] => do
    return .row ⟨String.ofList memento, String.ofList name, String.ofList modes, ← cell? isPrivate,
      ← cell? isTransient, String.ofList createdAt⟩
  | _ => none

theorem Part.ofRecord?_record (p : Part) : ofRecord? p.record = some p := by
  cases p with
  | records => rfl
  | applied a => simp [record, ofRecord?, Int.toInt?_repr]
  | table b => cases b <;> rfl
  | row r => simp [record, ofRecord?, cell?_cellField]
  | index => rfl

/-- The parts of a database. -/
def parts (d : Database) : List Part :=
  (match d.applied with
    | some l => .records :: l.map .applied
    | none => []) ++
  (match d.table with
    | some t => .table t.hasTransient :: t.rows.map .row
    | none => []) ++
  if d.indexed then [.index] else []

/-- A database with one part more. -/
def add (d : Database) : Part → Option Database
  | .records => some { d with applied := some [] }
  | .applied a => d.applied.map fun l => { d with applied := some (l ++ [a]) }
  | .table b => some { d with table := some ⟨b, []⟩ }
  | .row r => d.table.map fun t => { d with table := some { t with rows := t.rows ++ [r] } }
  | .index => some { d with indexed := true }

theorem foldlM_add_applied (d : Database) (l m : List Applied) (h : d.applied = some l) :
    (m.map Part.applied).foldlM add d = some { d with applied := some (l ++ m) } := by
  induction m generalizing d l with
  | nil => simp [← h]
  | cons a m ih => simp [add, h, ih _ (l ++ [a])]

theorem foldlM_add_row (d : Database) (t : Table) (rows : List Row) (h : d.table = some t) :
    (rows.map Part.row).foldlM add d =
      some { d with table := some { t with rows := t.rows ++ rows } } := by
  induction rows generalizing d t with
  | nil => simp [← h]
  | cons r rows ih => simp [add, h, ih _ { t with rows := t.rows ++ [r] }]

theorem foldlM_add_parts (d : Database) : (parts d).foldlM add {} = some d := by
  obtain ⟨applied, table, indexed⟩ := d
  unfold parts
  rw [List.foldlM_append, List.foldlM_append]
  have h1 : (match applied with
      | some l => Part.records :: l.map .applied
      | none => []).foldlM add {} = some { applied := applied } := by
    cases applied with
    | none => rfl
    | some l => simp [add, foldlM_add_applied _ [] l]
  have h2 : (match table with
      | some t => Part.table t.hasTransient :: t.rows.map .row
      | none => []).foldlM add { applied := applied } = some { applied := applied, table := table } := by
    cases table with
    | none => rfl
    | some t => simp [add, foldlM_add_row _ ⟨t.hasTransient, []⟩ t.rows]
  simp only [h1, h2, Option.bind_eq_bind, Option.bind_some]
  cases indexed <;> simp [add]

/-! ## Databases as text -/

/-- The text of a database. -/
def write (d : Database) : String :=
  String.ofList ((head :: (parts d).map Part.record).flatMap writeRecord)

/-- The database of a text. -/
def read (text : String) : Option Database := do
  let (first, rest) ← readRecords text.toList
  if first = head then (← rest.mapM Part.ofRecord?).foldlM add {} else none

/-- What was written is read back. -/
theorem read_write (d : Database) : read (write d) = some d := by
  have h : ((parts d).map Part.record).mapM Part.ofRecord? = some (parts d) := by
    induction parts d with
    | nil => rfl
    | cons p ps ih => simp [Part.ofRecord?_record, ih]
  unfold read write
  rw [String.toList_ofList, readRecords_write]
  simp [h, foldlM_add_parts]

end Image

end RecentLaunches
