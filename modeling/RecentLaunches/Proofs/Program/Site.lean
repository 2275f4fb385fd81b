/-
Where the state of a user goes. A site is a disk on which nothing is yet at the places of the database, the
files beside it and the history, and on which all of them can be made without one taking the place of
another. What a session leaves on it is a database and a history, each at its place, and the next session
begins with both.
-/
import RecentLaunches.Proofs.Database.Opening
import RecentLaunches.Proofs.History.Keeping
import RecentLaunches.Proofs.Program.Work

namespace RecentLaunches

/-- A disk with room for the state that settings speak of: an ordinary database is made in a directory that
is there, and a history is saved at another place than those of the database, its journal and its log. -/
structure Site (settings : Settings) (home : Home) (disk : Disk) where
  /-- The disk with the directory for state. -/
  made : Disk
  makeDirs : disk.makeDirs (settings.stateIn home) = (.ok (), made)
  /-- What the name of the database stands for. -/
  address : DatabaseAddress
  address_eq : (DatabaseFile.mk (settings.databaseIn home)).address = .ok address
  isInMemory : address.isInMemory = false
  access : address.access = .create
  isImmutable : address.isImmutable = false
  model : address.model = none
  /-- Where the database goes. -/
  place : Location
  isVacant : made.node? place = none
  isDirectoryAt : made.isDirectoryAt place.dropLast = true
  takesJournal : made.takesJournal place = true
  exists_history : (made.put place (.file (.database .fresh))).exists? (settings.historyIn home).path = false
  /-- The disk with a new database and a history. -/
  saved : Disk
  save : (made.put place (.file (.database .fresh))).save (settings.historyIn home).path (.ofText "") =
    (.ok (), saved)
  location? : DatabaseFile.location? saved address.path = some place
  database : saved.node? place = some (.file (.database .fresh))
  journal : saved.node? (Companion.journal.at place) = none
  log : saved.node? (Companion.log.at place) = none

namespace Site

variable {settings : Settings} {home : Home} {disk d d' : Disk} {db : Database} {history : History}

/-- The disk with a new database and no history. -/
def opened (site : Site settings home disk) : Disk :=
  site.made.put site.place (.file (.database .fresh))

/-! ## The places -/

section

variable (site : Site settings home disk)

theorem place_ne_nil : site.place ≠ [] := by
  intro h
  have hn := site.isVacant
  rw [h] at hn
  cases hn

theorem extends_opened : site.made.Extends site.opened :=
  (Disk.keeps_put site.isVacant _).extends

theorem extends_disk : disk.Extends site.opened :=
  ((Disk.keeps_makeDirs site.makeDirs).trans (Disk.keeps_put site.isVacant _)).extends

/-- The history goes elsewhere than the database. -/
theorem ne_place {l : Location}
    (h : site.opened.SavedAt (settings.historyIn home).path (.ofText "") site.saved l) : l ≠ site.place := by
  rintro rfl
  have hnode := h.node
  rw [site.database] at hnode
  cases hnode

theorem extends_saved : site.opened.Extends site.saved := by
  obtain ⟨l, h⟩ := Disk.exists_savedAt site.save
  exact h.extends_save

theorem isReadOnly : site.address.isReadOnly = false := by
  unfold DatabaseAddress.isReadOnly
  rw [site.access, site.isImmutable]
  rfl

end

/-! ## Between sessions -/

/-- The state between two sessions: a database and a history at their places. As long as none was saved there
is no history file. -/
structure Rests (site : Site settings home disk) (d : Disk) (db : Database) (history : History) : Prop where
  database : d.node? site.place = some (.file (.database db))
  history : (site.opened.Alike d ∧ history = .empty) ∨
    (site.saved.Alike d ∧ ∃ l, site.opened.SavedAt (settings.historyIn home).path (.ofText "") site.saved l ∧
      d.node? l = some (.file (.ofText (Document.render history))))

/-- A disk in use: nothing is on it that is not on the saved one, and all that there is before a history. -/
structure InUse (site : Site settings home disk) (d : Disk) : Prop where
  opened : site.opened.Extends d
  saved : d.Extends site.saved

namespace InUse

variable {site : Site settings home disk}

theorem journal (h : site.InUse d) : d.node? (Companion.journal.at site.place) = none :=
  h.saved.node?_eq_none site.journal

theorem log (h : site.InUse d) : d.node? (Companion.log.at site.place) = none :=
  h.saved.node?_eq_none site.log

theorem location? (h : site.InUse d) : DatabaseFile.location? d site.address.path = some site.place :=
  DatabaseFile.location?_of_extends h.saved site.location?

theorem makeDirs (h : site.InUse d) : d.makeDirs (settings.stateIn home) = (.ok (), d) :=
  Disk.makeDirs_of_extends site.makeDirs (site.extends_opened.trans h.opened)

/-- No directory is in the way of the journal, and its name is short enough. -/
theorem takesJournal (h : site.InUse d) : d.takesJournal site.place = true := by
  have hfirst := site.takesJournal
  unfold Disk.takesJournal Disk.isDirectoryAt at hfirst ⊢
  simp only [Bool.and_eq_true] at hfirst ⊢
  refine ⟨?_, hfirst.2⟩
  rw [h.journal]
  rfl

end InUse

theorem Rests.inUse {site : Site settings home disk} (h : site.Rests d db history) : site.InUse d := by
  rcases h.history with ⟨ha, -⟩ | ⟨ha, -⟩
  · exact ⟨ha.extends, ha.symm.extends.trans site.extends_saved⟩
  · exact ⟨site.extends_saved.trans ha.extends, ha.symm.extends⟩

/-! ## Opening -/

/-- A session finds the database that the one before it left. -/
theorem Rests.keepsAt {site : Site settings home disk} (h : site.Rests d db history) :
    (DatabaseFile.mk (settings.databaseIn home)).KeepsAt site.address site.place d db :=
  ⟨site.address_eq, site.isInMemory, h.inUse.location?, by rw [site.model]; rfl, ⟨_, h.database, rfl⟩,
    h.inUse.journal, h.inUse.log⟩

/-- The session after the first one begins with what it left. -/
theorem Rests.start {site : Site settings home disk} (h : site.Rests d db history) (hdb : db.IsCurrent) :
    Session.start settings home d =
      (.ok ⟨⟨.file site.place, db, false, true, false⟩, settings.historyIn home, d⟩, d) := by
  have hin := h.inUse
  have hopen : (DatabaseFile.mk (settings.databaseIn home)).openOn d =
      (.ok ⟨.file site.place, db, false, true, false⟩, d) := by
    rw [h.keepsAt.openOn_of_eq (by rw [hdb.migrate_eq]), hdb.migrate_eq, site.isReadOnly, hin.takesJournal]
    rfl
  unfold Session.start
  rw [hin.makeDirs]
  simp only [hopen]

/-! ## Writing -/

/-- The disk with another database in its file, as a session writes it. -/
def written (site : Site settings home disk) (d : Disk) (db : Database) : Disk :=
  (d.put site.place (.file (.database db))).erase (Companion.journal.at site.place)

section

variable {site : Site settings home disk} {content : Content}

/-- Writing the database changes nothing else. -/
theorem node?_written (h : site.InUse d) (hd : d.node? site.place = some (.file content)) (db : Database)
    (a : Location) :
    (site.written d db).node? a = if a = site.place then some (.file (.database db)) else d.node? a :=
  DatabaseFile.node?_written hd h.journal db a

theorem alike_written (h : site.InUse d) (hd : d.node? site.place = some (.file content)) (db : Database) :
    d.Alike (site.written d db) :=
  DatabaseFile.alike_written hd h.journal db

theorem Rests.written (h : site.Rests d db history) (db' : Database) :
    site.Rests (site.written d db') db' history := by
  have hin := h.inUse
  have halike := alike_written hin h.database db'
  refine ⟨?_, ?_⟩
  · rw [node?_written hin h.database, if_pos rfl]
  · rcases h.history with ⟨ha, hh⟩ | ⟨ha, l, hl, hn⟩
    · exact .inl ⟨ha.trans halike, hh⟩
    · refine .inr ⟨ha.trans halike, l, hl, ?_⟩
      rw [node?_written hin h.database, if_neg (site.ne_place hl)]
      exact hn

/-- What a connection has changed is written. -/
theorem Rests.flush {c c' : Connection} {r : Registry} (h : site.Rests d c.database history)
    (hc : c'.Fits site.place r) (ha : c.Awaits c') : site.Rests (c'.flush d) c'.database history := by
  unfold Connection.flush
  split_ifs with hchanged
  · rw [hc.medium]
    exact h.written c'.database
  · rcases ha with rfl | ha
    · exact h
    · exact absurd ha hchanged

/-- The first session begins with a new database, and no history. -/
theorem start (site : Site settings home disk) :
    ∃ c d, Session.start settings home disk = (.ok ⟨c, settings.historyIn home, d⟩, d) ∧
      c.Fits site.place .empty ∧ site.Rests d c.database .empty := by
  -- the file is made empty, and is that of a database once the schema is there
  let first := site.made.put site.place (.file (.bytes .empty))
  have hfirst : site.opened.Alike first := (Disk.Alike.refl _).put site.place_ne_nil rfl
  have hin : site.InUse first := ⟨hfirst.extends, hfirst.symm.extends.trans site.extends_saved⟩
  have hnode : first.node? site.place = some (.file (.bytes .empty)) :=
    Disk.node?_put_self _ _ site.place_ne_nil
  have hlocation : DatabaseFile.location? site.made site.address.path = some site.place :=
    DatabaseFile.location?_of_extends (site.extends_opened.trans site.extends_saved) site.location?
  have hopenFile : (DatabaseFile.mk (settings.databaseIn home)).openFile site.address site.made =
      .ok (site.place, .bytes .empty, first) := by
    unfold DatabaseFile.openFile
    rw [hlocation, site.model]
    simp only [Option.any_none, site.isVacant, site.access, site.isDirectoryAt]
    rfl
  have hconnect : (DatabaseFile.mk (settings.databaseIn home)).connect site.made =
      (.ok ⟨.file site.place, {}, false, true, false⟩, first) := by
    unfold DatabaseFile.connect
    rw [site.address_eq]
    have hempty : (Content.bytes .empty).database? = some {} := rfl
    simp only
    rw [if_neg (by rw [site.isInMemory]; decide), hopenFile]
    simp only
    rw [DatabaseFile.connectAt_of_none hin.journal hin.log hempty, site.isReadOnly, hin.takesJournal]
  have hmigrate : Connection.migrate ⟨.file site.place, {}, false, true, false⟩ =
      (.ok (), ⟨.file site.place, .fresh, false, true, true⟩) := by
    unfold Connection.migrate
    simp only [Database.migrate_empty]
    rfl
  have hopen : (DatabaseFile.mk (settings.databaseIn home)).openOn site.made =
      (.ok ⟨.file site.place, .fresh, false, true, true⟩, site.written first .fresh) := by
    unfold DatabaseFile.openOn
    rw [hconnect]
    simp only [hmigrate]
    rfl
  refine ⟨⟨.file site.place, .fresh, false, true, true⟩, site.written first .fresh, ?_, ?_, ?_⟩
  · unfold Session.start
    rw [site.makeDirs]
    simp only [hopen]
  · exact ⟨rfl, rfl, rfl, Database.holds_fresh⟩
  · refine ⟨?_, .inl ⟨hfirst.trans (alike_written hin hnode _), rfl⟩⟩
    show (site.written first .fresh).node? site.place = _
    rw [node?_written hin hnode, if_pos rfl]

/-! ## The history -/

/-- Before the first session nothing is kept. -/
theorem loadOrEmpty (site : Site settings home disk) : (settings.historyIn home).loadOrEmpty disk = .empty :=
  HistoryFile.loadOrEmpty_of_exists? (site.extends_disk.exists?_eq_false site.exists_history)

/-- What is begun with is what was saved last. -/
theorem Rests.loadOrEmpty (h : site.Rests d db history) (hw : history.WF) (hn : history.IsNamed) :
    (settings.historyIn home).loadOrEmpty d = history := by
  rcases h.history with ⟨ha, rfl⟩ | ⟨ha, l, hl, hnode⟩
  · refine HistoryFile.loadOrEmpty_of_exists? ?_
    rw [ha.exists?]
    exact site.exists_history
  · have hread : d.readText (settings.historyIn home).path = .ok (Document.render history) :=
      Disk.readText_of_node hl.isClosed (by rw [ha.locate]; exact hl.locate) hnode
    unfold HistoryFile.loadOrEmpty HistoryFile.load
    rw [hread]
    simp only [Document.read_render hw hn]
    rfl

/-- Any history can be saved. -/
theorem Rests.save (h : site.Rests d db history) (history' : History) :
    ∃ d', (settings.historyIn home).save d history' = (.ok (), d') ∧ site.Rests d' db history' := by
  obtain ⟨l, hl⟩ := Disk.exists_savedAt site.save
  have hsaves : ∃ d', d.save (settings.historyIn home).path (.ofText (Document.render history')) = (.ok (), d') ∧
      site.saved.Alike d' := by
    rcases h.history with ⟨ha, -⟩ | ⟨ha, -⟩
    · exact ha.save site.save _
    · obtain ⟨d', hd', ha'⟩ := ha.save (hl.again (.ofText "")) (.ofText (Document.render history'))
      exact ⟨d', hd', ((Disk.Alike.refl _).put_file hl.node _).trans ha'⟩
  obtain ⟨d', hsave, ha⟩ := hsaves
  obtain ⟨l', hl'⟩ := Disk.exists_savedAt hsave
  -- the place is the same as the first time
  have hsame : l' = l := by
    have hlocate := hl'.locate
    rw [ha.locate, hl.locate] at hlocate
    exact (Except.ok.inj hlocate).symm
  subst hsame
  exact ⟨d', HistoryFile.save_eq_ok_iff.2 hsave, hl'.frame (site.ne_place hl).symm h.database,
    .inr ⟨ha, l', hl, hl'.node⟩⟩

end

end Site

end RecentLaunches
