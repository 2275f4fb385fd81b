/-
Rows that stay. Opening a database changes its schema and no configuration: whatever was recorded, wherever the
migrations are refused and whatever is beside the file, every row has the values it had, with at most a new flag where
there was no column for it. A table of the first version is always brought up to date, and then all of its rows are read
with their old values, as configurations that are not transient.
-/
import RecentLaunches.Proofs.Database.Connected
import RecentLaunches.Proofs.Database.Reading
import RecentLaunches.Proofs.Database.Resting

namespace RecentLaunches

/-! ## What is kept -/

/-- A row has the values of another one. A transient flag counts if there was a column for it. -/
structure Row.KeptAs (hasTransient : Bool) (r r' : Row) : Prop where
  memento : r'.memento = r.memento
  name : r'.name = r.name
  modes : r'.modes = r.modes
  isPrivate : r'.isPrivate = r.isPrivate
  createdAt : r'.createdAt = r.createdAt
  isTransient : hasTransient = true → r'.isTransient = r.isTransient

theorem Row.KeptAs.refl (hasTransient : Bool) (r : Row) : r.KeptAs hasTransient r :=
  ⟨rfl, rfl, rfl, rfl, rfl, fun _ => rfl⟩

/-- The row with a transient flag that says no. -/
def Row.cleared (r : Row) : Row :=
  { r with isTransient := .integer 0 }

theorem Row.keptAs_cleared (r : Row) : r.KeptAs false r.cleared :=
  ⟨rfl, rfl, rfl, rfl, rfl, nofun⟩

theorem Table.rows_addTransient (t : Table) : t.addTransient.rows = t.rows.map Row.cleared :=
  rfl

namespace Database

variable {d d' : Database} {t : Table} {l : List Applied}

/-- A database has the rows of another one in their places, and no others, as far as there was a table for them. -/
def KeptAs (d d' : Database) : Prop :=
  ∀ t, d.table = some t → ∃ t', d'.table = some t' ∧ (t.hasTransient = true → t'.hasTransient = true) ∧
    List.Forall₂ (Row.KeptAs t.hasTransient) t.rows t'.rows

theorem KeptAs.refl (d : Database) : d.KeptAs d :=
  fun t ht => ⟨t, ht, id, List.forall₂_same.2 fun r _ => .refl _ r⟩

theorem Grows.keptAs (h : d.Grows d') : d.KeptAs d' := by
  intro t ht
  rcases h.table t ht with ht' | ⟨hc, ht'⟩
  · exact ⟨t, ht', id, List.forall₂_same.2 fun r _ => .refl _ r⟩
  · refine ⟨_, ht', fun _ => rfl, ?_⟩
    rw [hc, Table.rows_addTransient, List.forall₂_map_right_iff, List.forall₂_same]
    exact fun r _ => r.keptAs_cleared

/-- Wherever the migrations end, they have only added to the database. -/
theorem grows_migrate (d : Database) : d.Grows d.migrate.1 := by
  obtain ⟨p, rest, -, hp, -⟩ := exists_executed d d.plan
  exact (of_executeAll hp).1

/-! ## Migrations that are not refused -/

theorem execute_note {a : Applied} {table : Option Table} {indexed : Bool} (h : ∀ b ∈ l, b.version ≠ a.version) :
    execute ⟨some l, table, indexed⟩ (.note a) = .ok ⟨some (l ++ [a]), table, indexed⟩ := by
  have hany : ¬l.any (·.version == a.version) = true := by simpa using h
  simp only [execute]
  rw [if_neg hany]

/-- The first migration changes no table that is there. -/
theorem executeAll_createTable {a : Applied} (indexed : Bool) (h : ∀ b ∈ l, b.version ≠ a.version) :
    executeAll ⟨some l, some t, indexed⟩ [.createTable, .note a] = (⟨some (l ++ [a]), some t, indexed⟩, .ok ()) := by
  have htable : execute ⟨some l, some t, indexed⟩ .createTable = .ok ⟨some l, some t, indexed⟩ := rfl
  rw [executeAll_cons_ok htable, executeAll_cons_ok (execute_note h)]
  rfl

/-- The second one adds the column. -/
theorem executeAll_addTransient {a : Applied} (indexed : Bool) (ht : t.hasTransient = false)
    (h : ∀ b ∈ l, b.version ≠ a.version) :
    executeAll ⟨some l, some t, indexed⟩ [.addTransient, .createIndex, .note a] =
      (⟨some (l ++ [a]), some t.addTransient, true⟩, .ok ()) := by
  have hadd : execute ⟨some l, some t, indexed⟩ .addTransient = .ok ⟨some l, some t.addTransient, indexed⟩ := by
    simp [execute, ht]
  have hindex : execute ⟨some l, some t.addTransient, indexed⟩ .createIndex =
      .ok ⟨some l, some t.addTransient, true⟩ := rfl
  rw [executeAll_cons_ok hadd, executeAll_cons_ok hindex, executeAll_cons_ok (execute_note h)]
  rfl

/-- A database that is brought up to date: with the records that were missing, and with the column. -/
def upgraded (d : Database) (t : Table) : Database where
  applied := some (d.records ++ (Migration.all.filter (d.version < ·.version)).map Migration.record)
  table := some t.addTransient
  indexed := true

/-- A table without the column is brought up to date if no version above the first is recorded. -/
theorem migrate_eq_upgraded (ht : d.table = some t) (hc : t.hasTransient = false)
    (hv : ∀ a ∈ d.records, a.version ≤ 1) : d.migrate = (d.upgraded t, .ok ()) := by
  have hrange : d.IsInRange := fun a ha => (hv a ha).trans (by decide)
  have hcreate : d.execute .createApplied = .ok ⟨some d.records, some t, d.indexed⟩ := by
    rw [← ht]
    rfl
  rw [migrate_eq]
  unfold plan upgraded
  rw [executeAll_cons_ok hcreate]
  rcases Nat.le_one_iff_eq_zero_or_eq_one.1 ((version_le_iff hrange 1).2 hv) with hzero | hone
  · have hnone : ∀ b ∈ d.records, b.version ≤ 0 := (version_le_iff hrange 0).1 hzero.le
    have hfirst : ∀ b ∈ d.records, b.version ≠ 1 := fun b hb hb' => by have := hnone b hb; omega
    have hsecond : ∀ b ∈ d.records ++ [⟨1, "Initial schema"⟩], b.version ≠ 2 := by
      intro b hb hb'
      rcases List.mem_append.1 hb with hb | hb
      · have := hnone b hb
        omega
      · rw [List.mem_singleton.1 hb] at hb'
        cases hb'
    have hpending : Migration.pending 0 = [.createTable, .note ⟨1, "Initial schema"⟩] ++
        [.addTransient, .createIndex, .note ⟨2, "Track implicitly created configurations"⟩] := rfl
    rw [hzero, hpending, executeAll_append (executeAll_createTable d.indexed hfirst),
      executeAll_addTransient d.indexed hc hsecond, List.append_assoc]
    rfl
  · have hsecond : ∀ b ∈ d.records, b.version ≠ 2 := fun b hb hb' => by have := hv b hb; omega
    have hpending : Migration.pending 1 =
        [.addTransient, .createIndex, .note ⟨2, "Track implicitly created configurations"⟩] := rfl
    rw [hone, hpending, executeAll_addTransient d.indexed hc hsecond]
    rfl

/-- The records that are missing then are those of the first two versions. -/
theorem exists_record_upgraded (t : Table) (hv : ∀ a ∈ d.records, a.version ≤ 1) :
    ∀ v ∈ [1, 2], ∃ a ∈ (d.upgraded t).records, a.version = v := by
  have hrecord : ∀ m ∈ Migration.all, 1 ≤ m.version → ∃ a ∈ (d.upgraded t).records, a.version = m.version := by
    intro m hm hone
    by_cases hlt : d.version < m.version
    · exact ⟨m.record, List.mem_append_right _ (List.mem_map_of_mem (List.mem_filter.2 ⟨hm, by simpa using hlt⟩)), rfl⟩
    · -- a version that is not pending has been recorded, since none above it has
      have hsome : ¬∀ a ∈ d.records, a.version ≤ (m.version - 1 : Nat) := by
        rw [← version_le_iff fun a ha => (hv a ha).trans (by decide)]
        omega
      push Not at hsome
      obtain ⟨a, ha, hlt'⟩ := hsome
      exact ⟨a, List.mem_append_left _ ha, by have := hv a ha; omega⟩
  have hall : ∀ v ∈ [(1 : Int), 2], ∃ m ∈ Migration.all, 1 ≤ m.version ∧ (m.version : Int) = v := by decide
  intro v h
  obtain ⟨m, hm, hone, rfl⟩ := hall v h
  exact hrecord m hm hone

/-! ## Reading afterwards -/

end Database

/-- The values of a row are those of a configuration, but for the transient flag. -/
structure Row.Describes (r : Row) (c : Configuration) : Prop where
  memento : c.memento = r.memento
  name : c.name = r.name
  modes : StoredModes.decode r.modes = some c.modes
  isPrivate : r.isPrivate.flag = some c.isPrivate
  createdAt : Timestamp.readStored r.createdAt = some c.createdAt

theorem Row.decode_cleared_eq_ok_iff {r : Row} {c : Configuration} :
    r.cleared.decode = .ok c ↔ r.Describes c ∧ c.isTransient = false := by
  rw [decode_eq_ok_iff]
  constructor
  · rintro ⟨modes, isPrivate, isTransient, createdAt, hm, hp, ht, hc, rfl⟩
    exact ⟨⟨rfl, rfl, hm, hp, hc⟩, (Option.some.inj ht).symm⟩
  · rintro ⟨h, ht⟩
    refine ⟨c.modes, c.isPrivate, false, c.createdAt, h.modes, h.isPrivate, rfl, h.createdAt, ?_⟩
    show c = ⟨r.memento, r.name, _, _, _, _⟩
    rw [← h.memento, ← h.name, ← ht]

theorem Table.sorted_addTransient (t : Table) : t.addTransient.sorted = t.sorted.map Row.cleared := by
  have hle : ∀ a ∈ t.rows, ∀ b ∈ t.rows, a.le b = a.cleared.le b.cleared := fun _ _ _ _ => rfl
  exact (List.map_mergeSort hle).symm

namespace Database

variable {d : Database} {t : Table} {r : Row} {c : Configuration} {cs : List Configuration}

theorem fullTable_upgraded (d : Database) (t : Table) : (d.upgraded t).fullTable = .ok t.addTransient :=
  rfl

theorem get_upgraded (hkey : t.IsKeyed) (hr : r ∈ t.rows) :
    (d.upgraded t).get r.memento ≠ .ok none ∧
      ∀ c, (d.upgraded t).get r.memento = .ok (some c) ↔ r.Describes c ∧ c.isTransient = false := by
  have hmem : r.cleared ∈ t.addTransient.rows := List.mem_map_of_mem hr
  have hfull := fullTable_upgraded d t
  refine ⟨?_, fun c => (get_eq_ok_iff_of_mem hfull hkey.addTransient hmem).trans Row.decode_cleared_eq_ok_iff⟩
  have hget : (d.upgraded t).get r.memento = r.cleared.decode.map some := get_of_mem hfull hkey.addTransient hmem
  rw [hget]
  rcases r.cleared.decode with e | c <;> simp [Except.map]

theorem list_upgraded :
    (d.upgraded t).list = .ok cs ↔ List.Forall₂ (fun r c => r.Describes c ∧ c.isTransient = false) t.sorted cs := by
  rw [list_of_ok (fullTable_upgraded d t), Row.mapM_decode_eq_ok_iff_forall₂, Table.sorted_addTransient,
    List.forall₂_map_left_iff]
  simp only [Row.decode_cleared_eq_ok_iff]

end Database

/-! ## Files -/

/-- Taking a log away leaves the file of the database. -/
theorem Disk.node?_eraseLog {l : Location} (hne : l ≠ []) (d : Disk) : (d.eraseLog l).node? l = d.node? l := by
  unfold eraseLog
  rw [node?_erase_of_ne (Companion.at_ne hne _).symm, node?_erase_of_ne (Companion.at_ne hne _).symm]

namespace Connection

variable {c : Connection} {l : Location} {disk : Disk} {d : Database}

/-- The changes of a connection go to the file at a location, by way of a log or not. -/
def GoesTo (c : Connection) (l : Location) : Prop :=
  c.medium = .file l ∨ c.medium = .log l

/-- The migrations of an open database keep what it has, and where its changes go. -/
theorem GoesTo.migrate (h : c.GoesTo l) : c.database.KeptAs c.migrate.2.database ∧ c.migrate.2.GoesTo l := by
  unfold Connection.migrate
  rcases hm : c.database.migrate with ⟨d, r⟩
  rcases hc : c.commit d with e | c' <;> simp only [hc]
  · exact ⟨.refl _, h⟩
  · unfold GoesTo
    rw [database_of_commit hc, medium_of_commit hc]
    have hgrows := c.database.grows_migrate
    rw [hm] at hgrows
    exact ⟨hgrows.keptAs, h⟩

/-- A database that can be changed is brought up to date as its migrations are. -/
theorem migrate_of_isWritable (hro : c.isReadOnly = false) (hw : c.isWritable = true) :
    c.migrate.1 = c.database.migrate.2 ∧ c.migrate.2.database = c.database.migrate.1 := by
  unfold migrate
  rcases hm : c.database.migrate with ⟨d, r⟩
  obtain ⟨c', hc⟩ : ∃ c', c.commit d = .ok c' := by
    unfold commit
    split_ifs with he hro'
    · exact ⟨_, rfl⟩
    · rw [hro] at hro'
      cases hro'
    · exact ⟨_, rfl⟩
  simp only [hc]
  exact ⟨trivial, database_of_commit hc⟩

/-- A file that is written has what it had or what the connection has. -/
theorem node?_flush (hne : l ≠ []) (hc : c.GoesTo l) (disk : Disk) :
    (c.flush disk).node? l = disk.node? l ∨ (c.flush disk).node? l = some (.file (.database c.database)) := by
  unfold flush
  split_ifs with hchanged
  · rcases hc with hc | hc <;> simp only [hc]
    · right
      rw [Disk.node?_erase_of_ne (Companion.at_ne hne _).symm, Disk.node?_put_self _ _ hne]
    · exact .inl (Disk.node?_put_of_ne _ (Companion.at_ne hne _).symm)
  · exact .inl rfl

/-- The same holds when the connection is ended, which brings the changes from the log into the file. -/
theorem node?_close_flush (hne : l ≠ []) (hc : c.GoesTo l) (hn : disk.node? l = some (.file (.database d))) :
    (c.close (c.flush disk)).node? l = some (.file (.database d)) ∨
      (c.close (c.flush disk)).node? l = some (.file (.database c.database)) := by
  rcases hc with hc | hc
  · have hflush := node?_flush hne (.inl hc) disk
    rw [hn] at hflush
    unfold close
    rw [hc]
    exact hflush
  · have hlog := Disk.node?_put_self disk (.file (.database c.database)) (Companion.at_ne_nil .log l)
    have hfile : (disk.put (Companion.log.at l) (.file (.database c.database))).node? l = some (.file (.database d)) :=
      (Disk.node?_put_of_ne _ (Companion.at_ne hne _).symm).trans hn
    unfold close flush
    simp only [hc]
    rcases hchanged : c.isChanged with _ | _
    · simp only [Bool.false_eq_true, if_false]
      split_ifs
      · exact .inl hn
      · exact .inl ((Disk.node?_eraseLog hne disk).trans hn)
    · simp only [if_true, hlog, hfile]
      split_ifs
      · exact .inl hfile
      · rw [Disk.node?_eraseLog hne, Disk.node?_put_self _ _ hne]
        exact .inr rfl

end Connection

namespace DatabaseFile

open Disk

variable {f : DatabaseFile} {a : DatabaseAddress} {l : Location} {disk opened : Disk} {d : Database} {c : Connection}

/-- The file of a database that a name leads to, whatever is beside it. -/
structure LeadsTo (f : DatabaseFile) (a : DatabaseAddress) (l : Location) (disk : Disk) (d : Database) : Prop where
  address : f.address = .ok a
  isInMemory : a.isInMemory = false
  location : location? disk a.path = some l
  node : disk.node? l = some (.file (.database d))

theorem LeadsTo.ne_nil (h : f.LeadsTo a l disk d) : l ≠ [] :=
  ne_nil_of_location? h.location

/-- Judging what is beside a file leaves the file, also where it ends the opening. -/
theorem node?_settle (hne : l ≠ []) (a : DatabaseAddress) (disk : Disk) :
    (settle a l false disk).2.node? l = disk.node? l := by
  unfold settle
  split_ifs
  · rfl
  rcases hj : disk.settleJournal l false a.isReadOnly with e | m
  · rfl
  have hm : m.node? l = disk.node? l := (settleJournal_eq_ok hj).2.2.node l (Companion.at_ne hne _).symm
  rcases hl : m.openLog l false (a.system = .shared) with e | ⟨hasLog, m'⟩ <;> simp only [hl]
  · exact hm
  · rcases openLog_eq_ok hl with ⟨-, rfl, -⟩ | ⟨-, rfl, -⟩
    · exact hm
    · exact ((agreeOn_putIndex m l).node l (Companion.at_ne hne _).symm).trans hm

/-- Connecting to a database leaves its file. -/
theorem LeadsTo.connect (h : f.LeadsTo a l disk d) {r : Except DatabaseFault Connection}
    (hc : f.connect disk = (r, opened)) :
    opened.node? l = some (.file (.database d)) ∧ ∀ c, r = .ok c → c.database = d ∧ c.GoesTo l := by
  by_cases hmodel : a.model.any (!disk.exists? ·) = true
  · have hopen : f.openFile a disk = .error .ioError := by
      unfold openFile
      simp only [h.location, hmodel, if_true]
    unfold DatabaseFile.connect at hc
    simp only [h.address, h.isInMemory, hopen] at hc
    cases hc
    exact ⟨h.node, nofun⟩
  · have hsettle := node?_settle h.ne_nil a disk
    rw [connect_eq ⟨h.address, h.isInMemory, h.location, by simpa using hmodel⟩ h.node] at hc
    rcases hs : settle a l false disk with ⟨e | medium, m⟩ <;> rw [hs] at hc hsettle <;> cases hc
    · exact ⟨hsettle.trans h.node, nofun⟩
    · refine ⟨hsettle.trans h.node, fun c hc => ?_⟩
      cases hc
      refine ⟨rfl, ?_⟩
      rcases settle_eq_ok hs with ⟨-, rfl, -⟩ | ⟨m, -, -, -, ⟨rfl, -⟩ | ⟨rfl, -⟩⟩
      · exact .inl rfl
      · exact .inl rfl
      · exact .inr rfl

/-- The file of a database that is opened keeps what it has, and so does the connection, if there is one then. -/
theorem LeadsTo.keptAs_openOn (h : f.LeadsTo a l disk d) :
    (∃ d', (f.openOn disk).2.node? l = some (.file (.database d')) ∧ d.KeptAs d') ∧
      ∀ c, (f.openOn disk).1 = .ok c → d.KeptAs c.database ∧
        ∃ d', (c.close (f.openOn disk).2).node? l = some (.file (.database d')) ∧ d.KeptAs d' := by
  unfold openOn
  rcases hc : f.connect disk with ⟨e | c, opened⟩ <;> obtain ⟨hnode, hok⟩ := h.connect hc
  · exact ⟨⟨d, hnode, .refl d⟩, nofun⟩
  obtain ⟨rfl, hgoes⟩ := hok c rfl
  obtain ⟨hkept, hgoes'⟩ := hgoes.migrate
  have hkeeps : ∀ m : Disk, m.node? l = some (.file (.database c.database)) ∨
      m.node? l = some (.file (.database c.migrate.2.database)) →
      ∃ d', m.node? l = some (.file (.database d')) ∧ c.database.KeptAs d' := by
    rintro m (hm | hm)
    · exact ⟨_, hm, .refl _⟩
    · exact ⟨_, hm, hkept⟩
  have hclosed := hkeeps _ (Connection.node?_close_flush h.ne_nil hgoes' hnode)
  have hflushed := hkeeps _ (hnode ▸ Connection.node?_flush h.ne_nil hgoes' opened)
  simp only
  generalize c.migrate = migrated at *
  rcases migrated with ⟨e | ⟨⟩, c'⟩
  · exact ⟨hclosed, nofun⟩
  · refine ⟨hflushed, fun c hc => ?_⟩
    cases hc
    exact ⟨hkept, hclosed⟩

/-- Opening a database loses no configuration and alters none. Whatever its file holds and however the opening ends,
all rows are in the file afterwards, in the connection if there is one, and in the file when that is closed. A table without
the column is brought up to date if no version above the first is recorded, wherever the file can be changed; both versions
are recorded then, and every row that could be read is looked up and listed with its old values, as not transient. -/
theorem openOn_keeps (d : Database) :
    (∀ (f : DatabaseFile) (a : DatabaseAddress) (l : Location) (disk : Disk), f.LeadsTo a l disk d →
      (∃ d', (f.openOn disk).2.node? l = some (.file (.database d')) ∧ d.KeptAs d') ∧
      ∀ c, (f.openOn disk).1 = .ok c → d.KeptAs c.database ∧
        ∃ d', (c.close (f.openOn disk).2).node? l = some (.file (.database d')) ∧ d.KeptAs d') ∧
    ∀ t, d.table = some t → t.hasTransient = false → (∀ a ∈ d.records, a.version ≤ 1) →
      ∃ d', d.migrate = (d', .ok ()) ∧
        (∀ (f : DatabaseFile) (disk opened : Disk) (c : Connection), f.connect disk = (.ok c, opened) →
          c.database = d → c.isReadOnly = false → c.isWritable = true →
          ∃ c', (f.openOn disk).1 = .ok c' ∧ c'.database = d') ∧
        (∀ v ∈ [1, 2], ∃ a ∈ d'.records, a.version = v) ∧
        (t.IsKeyed →
          (∀ r ∈ t.rows, d'.get r.memento ≠ .ok none ∧
            ∀ x, d'.get r.memento = .ok (some x) ↔ r.Describes x ∧ x.isTransient = false) ∧
          ∃ rows : List Row, rows.Perm t.rows ∧ rows.Pairwise Row.Precedes ∧ ∀ xs, d'.list = .ok xs ↔
            List.Forall₂ (fun r x => r.Describes x ∧ x.isTransient = false) rows xs) := by
  refine ⟨fun f a l disk h => h.keptAs_openOn, fun t ht hc hv => ?_⟩
  have hmigrate := Database.migrate_eq_upgraded ht hc hv
  refine ⟨d.upgraded t, hmigrate, ?_, Database.exists_record_upgraded t hv, fun hkey =>
    ⟨fun r hr => Database.get_upgraded hkey hr, t.sorted, t.perm_sorted, hkey.pairwise_sorted, fun xs =>
      Database.list_upgraded⟩⟩
  rintro f disk opened c hconnect rfl hro hw
  have hresult := Connection.migrate_of_isWritable hro hw
  rw [hmigrate] at hresult
  unfold openOn
  rw [hconnect]
  simp only
  generalize c.migrate = migrated at *
  rcases migrated with ⟨r, c'⟩
  obtain ⟨rfl, hdatabase⟩ := hresult
  exact ⟨c', rfl, hdatabase⟩

/-- A disk with a database that has the column while no migration is recorded for it. -/
def withLocked : Disk where
  here := []
  nodes := [(["r.db"], .file (.database (Database.dated.stopped 3)))]

/-- A table of the first version is brought up to date with its row. The migrations of the other one are refused, and its
row stays in the file. -/
theorem openOn_keeps_dated :
    LeadsTo ⟨"r.db"⟩ ⟨"r.db", .create, .shared, false, none⟩ ["r.db"] withDated .dated ∧
      (∃ c x, (openOn ⟨"r.db"⟩ withDated).1 = .ok c ∧ x.name = "A" ∧ x.modes = [.run] ∧ x.isPrivate = false ∧
        x.isTransient = false ∧ c.database.get "a" = .ok (some x) ∧ c.database.list = .ok [x]) ∧
      LeadsTo ⟨"r.db"⟩ ⟨"r.db", .create, .shared, false, none⟩ ["r.db"] withLocked (Database.dated.stopped 3) ∧
      (openOn ⟨"r.db"⟩ withLocked).1 = .error (.repeatedColumn "transient") ∧
      ∃ d', (openOn ⟨"r.db"⟩ withLocked).2.node? ["r.db"] = some (.file (.database d')) ∧
        (Database.dated.stopped 3).KeptAs d' := by
  have hdated : LeadsTo ⟨"r.db"⟩ ⟨"r.db", .create, .shared, false, none⟩ ["r.db"] withDated .dated :=
    ⟨rfl, rfl, by decide, rfl⟩
  have hlocked : LeadsTo ⟨"r.db"⟩ ⟨"r.db", .create, .shared, false, none⟩ ["r.db"] withLocked
      (Database.dated.stopped 3) := ⟨rfl, rfl, by decide, rfl⟩
  refine ⟨hdated, ?_, hlocked, rfl, ((openOn_keeps _).1 _ _ _ _ hlocked).1⟩
  obtain ⟨createdAt, ht⟩ : ∃ s, Timestamp.readStored "2024-05-01T08:00:00+00:00" = some s :=
    Option.isSome_iff_exists.1 (by decide +kernel)
  obtain ⟨d', -, hopen, -, hread⟩ := (openOn_keeps .dated).2 _ rfl rfl (by decide)
  obtain ⟨c, hc, rfl⟩ := hopen ⟨"r.db"⟩ withDated _ _ rfl rfl rfl rfl
  obtain ⟨hget, rows, hperm, -, hlist⟩ := hread (by decide)
  let x : Configuration := ⟨"a", "A", [.run], false, false, createdAt⟩
  have hx : Row.Describes ⟨"a", "A", "[\"run\"]", .integer 0, .integer 0, "2024-05-01T08:00:00+00:00"⟩ x :=
    ⟨rfl, rfl, StoredModes.decode_encode [.run], rfl, ht⟩
  refine ⟨c, x, hc, rfl, rfl, rfl, rfl, ((hget _ (List.mem_singleton.2 rfl)).2 x).2 ⟨hx, rfl⟩, (hlist _).2 ?_⟩
  rw [List.perm_singleton.1 hperm]
  exact .cons ⟨hx, rfl⟩ .nil

end DatabaseFile

end RecentLaunches
