/-
Opening a database file. The file is read, brought up to date, and written if that changed anything, with what
was done before a statement that is refused. Main statement: a second opening finds what the first one left, and
leaves it as it is.
-/
import RecentLaunches.Proofs.Database.Migrating
import RecentLaunches.Proofs.Disk.Kinds

namespace RecentLaunches

namespace DatabaseFile

variable {f : DatabaseFile} {a : DatabaseAddress} {l : Location} {disk : Disk} {content : Content} {d : Database}

/-! ## Connecting -/

/-- What the files beside a database say: nothing, so that changes go to its file. -/
theorem settle_of_none (isNew : Bool) (hj : disk.node? (Companion.journal.at l) = none)
    (hl : disk.node? (Companion.log.at l) = none) : settle a l isNew disk = (.ok (.file l), disk) := by
  unfold settle Disk.settleJournal Disk.openLog
  simp only [hj, hl]
  split <;> rfl

theorem connectAt_of_none (hj : disk.node? (Companion.journal.at l) = none)
    (hl : disk.node? (Companion.log.at l) = none) (hd : content.database? = some d) :
    connectAt a l content disk = (.ok ⟨.file l, d, a.isReadOnly, disk.takesJournal l, false⟩, disk) := by
  unfold connectAt
  rw [settle_of_none _ hj hl]
  simp [hd]

/-- A database in a file, with nothing beside it that could tell of changes. -/
structure KeepsAt (f : DatabaseFile) (a : DatabaseAddress) (l : Location) (disk : Disk) (d : Database) : Prop where
  address : f.address = .ok a
  isInMemory : a.isInMemory = false
  location : location? disk a.path = some l
  model : a.model.any (!disk.exists? ·) = false
  node : ∃ content, disk.node? l = some (.file content) ∧ content.database? = some d
  journal : disk.node? (Companion.journal.at l) = none
  log : disk.node? (Companion.log.at l) = none

theorem KeepsAt.connect (h : f.KeepsAt a l disk d) :
    f.connect disk = (.ok ⟨.file l, d, a.isReadOnly, disk.takesJournal l, false⟩, disk) := by
  obtain ⟨content, hnode, hd⟩ := h.node
  have hopenFile : f.openFile a disk = .ok (l, content, disk) := by
    unfold openFile
    simp only [h.location, h.model, hnode]
    rfl
  unfold DatabaseFile.connect
  simp only [h.address, h.isInMemory, hopenFile]
  exact connectAt_of_none h.journal h.log hd

/-! ## Writing -/

/-- The disk with another database in a file, as a connection writes it. -/
def written (disk : Disk) (l : Location) (d : Database) : Disk :=
  (disk.put l (.file (.database d))).erase (Companion.journal.at l)

theorem node?_written (hnode : disk.node? l = some (.file content))
    (hj : disk.node? (Companion.journal.at l) = none) (d : Database) (b : Location) :
    (written disk l d).node? b = if b = l then some (.file (.database d)) else disk.node? b := by
  have hne : Companion.journal.at l ≠ l := by
    intro heq
    rw [heq, hnode] at hj
    cases hj
  have hjournal : (disk.put l (.file (.database d))).node? (Companion.journal.at l) = none := by
    rw [Disk.node?_put_of_ne _ hne]
    exact hj
  unfold written
  rw [Disk.node?_erase_of_none hjournal]
  split_ifs with hb
  · rw [hb]
    exact Disk.node?_put_self _ _ (Disk.ne_root_of_node? (by rw [hnode]; simp))
  · exact Disk.node?_put_of_ne _ hb

theorem alike_written (hnode : disk.node? l = some (.file content))
    (hj : disk.node? (Companion.journal.at l) = none) (d : Database) : disk.Alike (written disk l d) := by
  refine ⟨rfl, fun b => ?_⟩
  unfold Disk.kind?
  rw [node?_written hnode hj]
  split_ifs with hb
  · rw [hb, hnode]
    rfl
  · rfl

theorem KeepsAt.write (h : f.KeepsAt a l disk d) (d' : Database) : f.KeepsAt a l (written disk l d') d' := by
  obtain ⟨content, hnode, -⟩ := h.node
  have halike := alike_written hnode h.journal d'
  refine ⟨h.address, h.isInMemory, location?_of_extends halike.symm.extends h.location, ?_,
    ⟨.database d', ?_, rfl⟩, halike.node?_eq_none.2 h.journal, halike.node?_eq_none.2 h.log⟩
  · rw [← h.model]
    simp only [halike.exists?]
  · rw [node?_written hnode h.journal, if_pos rfl]

/-! ## Opening -/

/-- Where there is nothing to be changed, nothing is written. -/
theorem KeepsAt.openOn_of_eq (h : f.KeepsAt a l disk d) (hd : d.migrate.1 = d) :
    f.openOn disk =
      (d.migrate.2.map fun _ => ⟨.file l, d, a.isReadOnly, disk.takesJournal l, false⟩, disk) := by
  unfold openOn
  rw [h.connect]
  unfold Connection.migrate Connection.commit
  simp only [hd]
  rw [if_pos trivial]
  rcases d.migrate.2 with e | ⟨⟩ <;> rfl

/-- Where there is something to be changed, it is written or refused. -/
theorem KeepsAt.openOn_of_ne (h : f.KeepsAt a l disk d) (hd : d.migrate.1 ≠ d) :
    f.openOn disk = (d.migrate.2.map fun _ => ⟨.file l, d.migrate.1, a.isReadOnly, disk.takesJournal l, true⟩,
        DatabaseFile.written disk l d.migrate.1) ∨
      ∃ e, f.openOn disk = (.error e, disk) := by
  unfold openOn
  rw [h.connect]
  unfold Connection.migrate Connection.commit
  simp only [if_neg hd]
  split_ifs
  · exact .inr ⟨_, rfl⟩
  · refine .inl ?_
    rcases d.migrate.2 with e | ⟨⟩ <;> rfl
  · exact .inr ⟨_, rfl⟩

theorem eq_ok_of_map {c c' : Connection} {r : Except DatabaseFault Unit} (h : (r.map fun _ => c) = .ok c') :
    r = .ok () ∧ c' = c := by
  rcases r with e | ⟨⟩
  · cases h
  · exact ⟨rfl, (Except.ok.inj h).symm⟩

/-- Opening a database a second time changes nothing, and goes through where the first time did and every record
can be understood as a version. -/
theorem openOn_openOn (d : Database) :
    d.migrate.1.migrate.1 = d.migrate.1 ∧
      (d.migrate.2 = .ok () → d.migrate.1.IsInRange → d.migrate.1.migrate.2 = .ok () ∧ 2 ≤ d.migrate.1.version) ∧
      ∀ (f : DatabaseFile) (a : DatabaseAddress) (l : Location) (disk : Disk), f.KeepsAt a l disk d →
        ∃ d', f.KeepsAt a l (f.openOn disk).2 d' ∧ (f.openOn (f.openOn disk).2).2 = (f.openOn disk).2 ∧
          ∀ c, (f.openOn disk).1 = .ok c → c.database = d' ∧ (d'.IsInRange → 2 ≤ d'.version ∧
            ∃ c', (f.openOn (f.openOn disk).2).1 = .ok c' ∧ c'.database = d') := by
  refine ⟨d.fst_migrate_migrate, d.snd_migrate_migrate, fun f a l disk h => ?_⟩
  by_cases hd : d.migrate.1 = d
  · refine ⟨d, ?_⟩
    simp only [h.openOn_of_eq hd]
    refine ⟨h, trivial, fun c hc => ?_⟩
    obtain ⟨hok, rfl⟩ := eq_ok_of_map hc
    refine ⟨rfl, fun hr => ⟨?_, _, hc, rfl⟩⟩
    have htwo := (d.snd_migrate_migrate hok (by rw [hd]; exact hr)).2
    rwa [hd] at htwo
  · rcases h.openOn_of_ne hd with hopen | ⟨e, hopen⟩
    · -- what was written is what the second opening finds
      have hwritten := h.write d.migrate.1
      refine ⟨d.migrate.1, ?_⟩
      simp only [hopen, hwritten.openOn_of_eq d.fst_migrate_migrate]
      refine ⟨hwritten, trivial, fun c hc => ?_⟩
      obtain ⟨hok, rfl⟩ := eq_ok_of_map hc
      refine ⟨rfl, fun hr => ?_⟩
      obtain ⟨hagain, htwo⟩ := d.snd_migrate_migrate hok hr
      rw [hagain]
      exact ⟨htwo, _, rfl, rfl⟩
    · refine ⟨d, ?_⟩
      simp only [hopen]
      exact ⟨h, trivial, fun c hc => nomatch hc⟩

/-- A disk with a database of the first version of the schema. -/
def withDated : Disk where
  here := []
  nodes := [(["r.db"], .file (.database .dated))]

/-- It is brought up to date, and opened again. -/
theorem openOn_openOn_dated :
    Database.dated.migrate.2 = .ok () ∧ Database.dated.migrate.1.IsInRange ∧
      Database.dated.migrate.1.migrate = (Database.dated.migrate.1, .ok ()) ∧
      KeepsAt ⟨"r.db"⟩ ⟨"r.db", .create, .shared, false, none⟩ ["r.db"] withDated .dated ∧
      ∃ c c', (openOn ⟨"r.db"⟩ withDated).1 = .ok c ∧ 2 ≤ c.database.version ∧ c'.database = c.database ∧
        openOn ⟨"r.db"⟩ (openOn ⟨"r.db"⟩ withDated).2 = (.ok c', (openOn ⟨"r.db"⟩ withDated).2) := by
  obtain ⟨hfst, hsnd, hfile⟩ := openOn_openOn .dated
  have hok : Database.dated.migrate.2 = .ok () := rfl
  have hr : Database.dated.migrate.1.IsInRange := by decide
  have hkeeps : KeepsAt ⟨"r.db"⟩ ⟨"r.db", .create, .shared, false, none⟩ ["r.db"] withDated .dated :=
    ⟨rfl, by decide, by decide, rfl, ⟨_, rfl, rfl⟩, rfl, rfl⟩
  obtain ⟨d', -, hsame, hopened⟩ := hfile _ _ _ _ hkeeps
  obtain ⟨c, hc, hdb⟩ : ∃ c, (openOn ⟨"r.db"⟩ withDated).1 = .ok c ∧ c.database = Database.dated.migrate.1 :=
    ⟨_, rfl, rfl⟩
  obtain ⟨rfl, hagain⟩ := hopened c hc
  obtain ⟨htwo, c', hc', hdb'⟩ := hagain (by rw [hdb]; exact hr)
  exact ⟨hok, hr, Prod.ext hfst (hsnd hok hr).1, hkeeps, c, c', hc, htwo, hdb', Prod.ext hc' hsame⟩

end DatabaseFile

end RecentLaunches
