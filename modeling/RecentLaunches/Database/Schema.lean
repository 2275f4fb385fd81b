/-
The schema of the database and its versions. A migration is a list of statements; opening a database
carries out the statements that are pending, one by one, each taking effect by itself. A statement
that cannot be carried out ends the opening and leaves what was done before it.
-/
import RecentLaunches.Database.Table

namespace RecentLaunches

/-- A record that a migration was carried out. -/
structure Applied where
  version : Int
  description : String
  deriving DecidableEq, Repr

/-- A database: the records of migrations and the table of configurations, each if it is there, and
whether the transient flags are indexed. -/
structure Database where
  applied : Option (List Applied) := none
  table : Option Table := none
  indexed : Bool := false
  deriving DecidableEq, Repr

/-- One change of the schema. -/
inductive Statement
  | createApplied
  | createTable
  | addTransient
  | createIndex
  | note (record : Applied)
  deriving DecidableEq, Repr

namespace Database

/-- The name of the table of configurations. -/
def tableName : String := "launch_configurations"

/-- The name of the table with the records of migrations. -/
def appliedName : String := "schema_migrations"

/-- The name of the column with the transient flag. -/
def transientName : String := "transient"

/-- Carries out one statement. Tables and indexes are only made where they are missing, a column and a
record have to be new. -/
def execute (d : Database) : Statement → Except DatabaseFault Database
  | .createApplied => .ok { d with applied := some (d.applied.getD []) }
  | .createTable => .ok { d with table := some (d.table.getD .initial) }
  | .addTransient =>
    match d.table with
    | none => .error (.noTable tableName)
    | some t =>
      if t.hasTransient then .error (.repeatedColumn transientName)
      else .ok { d with table := some t.addTransient }
  | .createIndex =>
    match d.table with
    | none => .error (.noTable tableName)
    | some t =>
      if t.hasTransient then .ok { d with indexed := true } else .error (.noColumn transientName)
  | .note record =>
    match d.applied with
    | none => .error (.noTable appliedName)
    | some records =>
      if records.any (·.version == record.version) then .error .repeatedVersion
      else .ok { d with applied := some (records ++ [record]) }

/-- Carries out statements up to the first that fails. -/
def executeAll (d : Database) : List Statement → Database × Except DatabaseFault Unit
  | [] => (d, .ok ())
  | s :: rest =>
    match d.execute s with
    | .ok d => executeAll d rest
    | .error e => (d, .error e)

/-! ## Versions -/

/-- The largest version that is understood as one. -/
def maxVersion : Int := 0xffffffff

/-- The version of the schema: the largest one recorded, zero if there is none or it is no version. -/
def version (d : Database) : Nat :=
  match (d.applied.getD []).map (·.version) |>.max? with
  | some v => if 0 ≤ v ∧ v ≤ maxVersion then v.toNat else 0
  | none => 0

/-- The records of migrations by version. -/
def history (d : Database) : Except DatabaseFault (List Applied) :=
  match d.applied with
  | some records => .ok (records.mergeSort fun a b => decide (a.version ≤ b.version))
  | none => .error (.noTable appliedName)

end Database

/-- A step from one version of the schema to the next. -/
structure Migration where
  version : Nat
  description : String
  statements : List Statement
  deriving DecidableEq, Repr

namespace Migration

/-- All migrations in order. -/
def all : List Migration := [
  ⟨1, "Initial schema", [.createTable]⟩,
  ⟨2, "Track implicitly created configurations", [.addTransient, .createIndex]⟩]

/-- The statements of a migration, its record last. -/
def steps (m : Migration) : List Statement :=
  m.statements ++ [.note ⟨m.version, m.description⟩]

/-- The statements that a schema of some version still lacks. -/
def pending (version : Nat) : List Statement :=
  (all.filter (version < ·.version)).flatMap steps

end Migration

namespace Database

/-- Brings the schema up to date. The version is looked at once, before the first migration. -/
def migrate (d : Database) : Database × Except DatabaseFault Unit :=
  match d.execute .createApplied with
  | .error e => (d, .error e)
  | .ok d => d.executeAll (Migration.pending d.version)

end Database

end RecentLaunches
