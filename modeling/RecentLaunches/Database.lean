/-
Requests to a database of configurations. Every request fails where the table or a column it names is
missing; reading fails where a stored value has no meaning.
-/
import RecentLaunches.Database.Schema
import RecentLaunches.Store

namespace RecentLaunches

namespace Database

/-- The table of configurations. -/
def configurations (d : Database) : Except DatabaseFault Table :=
  match d.table with
  | some t => .ok t
  | none => .error (.noTable tableName)

/-- The table of configurations, if it has all columns. -/
def fullTable (d : Database) : Except DatabaseFault Table := do
  let t ← d.configurations
  if t.hasTransient then return t else .error (.noColumn transientName)

/-- Stores a row in the place of the one with its memento. -/
def put (d : Database) (r : Row) : Except DatabaseFault Database := do
  let t ← d.fullTable
  return { d with table := some (t.insert r) }

/-- Stores a configuration in the place of the one with its memento. -/
def save (d : Database) (c : Configuration) : Except DatabaseFault Database :=
  d.put (.ofConfiguration c)

/-- The configuration of a memento. -/
def get (d : Database) (m : Memento) : Except DatabaseFault (Option Configuration) := do
  let t ← d.fullTable
  match t.find? m with
  | some r => return some (← r.decode)
  | none => return none

/-- All configurations by time of creation, then by memento. The first row that cannot be read
decides. -/
def list (d : Database) : Except DatabaseFault (List Configuration) := do
  let t ← d.fullTable
  t.sorted.mapM Row.decode

/-- Gives a configuration another name; whether it was there. -/
def rename (d : Database) (m : Memento) (name : String) : Except DatabaseFault (Bool × Database) := do
  let t ← d.configurations
  return ((t.find? m).isSome, { d with table := some (t.rename m name) })

/-- Deletes a configuration; whether it was there. -/
def delete (d : Database) (m : Memento) : Except DatabaseFault (Bool × Database) := do
  let t ← d.configurations
  return ((t.find? m).isSome, { d with table := some (t.erase m) })

/-- Takes the table of configurations away, with its index. -/
def dropTable (d : Database) : Except DatabaseFault Database := do
  let _ ← d.configurations
  return { d with table := none, indexed := false }

/-- Takes the records of migrations away. -/
def dropApplied (d : Database) : Except DatabaseFault Database :=
  match d.applied with
  | some _ => .ok { d with applied := none }
  | none => .error (.noTable appliedName)

/-- A database as a store. A configuration that is gone already counts as deleted. -/
def store : Store Database where
  resolve d m := (d.get m).mapError .database
  delete d c :=
    match d.delete c.memento with
    | .ok (_, d) => (.ok (), d)
    | .error e => (.error (.database e), d)

/-- A new database at the current version of the schema. -/
def fresh : Database :=
  (migrate {}).1

end Database

end RecentLaunches
