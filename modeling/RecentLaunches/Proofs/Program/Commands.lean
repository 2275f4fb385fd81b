/-
One run of the program against the book that takes its command. The run opens the database, and may delete a
row before the history is read and pruned; the book does the same to a map and a history in one step. What
is printed and whether it failed are the same, and what is left on the disk is what is left in the book.
-/
import RecentLaunches.Proofs.Program.Ledger
import RecentLaunches.Proofs.Program.Site

namespace RecentLaunches

variable {settings : Settings} {home : Home} {disk d : Disk} {site : Site settings home disk}
  {b : Book Registry} {s : Session} {now : Timestamp}

/-! ## Sessions -/

/-- A session and its disk hold what a book holds. -/
structure Session.Tracks (site : Site settings home disk) (s : Session) (b : Book Registry) : Prop where
  file : s.file = settings.historyIn home
  connection : s.connection.Fits site.place b.store
  rests : site.Rests s.disk s.connection.database b.history
  isKept : b.IsKept Registry.store
  isNamed : b.IsNamed Registry.store

/-- A disk holds what a book holds: nothing, before the first session, or what a session left. -/
structure Site.Tracks (site : Site settings home disk) (d : Disk) (b : Book Registry) : Prop where
  rests : (d = disk ∧ b = .unused) ∨ ∃ db : Database, db.Holds b.store ∧ site.Rests d db b.history
  isKept : b.IsKept Registry.store
  isNamed : b.IsNamed Registry.store

theorem Site.tracks_unused (site : Site settings home disk) : site.Tracks disk .unused :=
  ⟨.inl ⟨rfl, rfl⟩, ⟨.empty, .empty _ _⟩, ⟨fun _ he => (nomatch he), Book.isNamed_registry.2 rfl⟩⟩

namespace Site.Tracks

/-- The history that is kept is the one of the book. -/
theorem loadOrEmpty (h : site.Tracks d b) : (settings.historyIn home).loadOrEmpty d = b.history := by
  rcases h.rests with ⟨rfl, rfl⟩ | ⟨db, -, hrests⟩
  · exact site.loadOrEmpty
  · exact hrests.loadOrEmpty h.isKept.wf h.isNamed.history

/-- Nothing comes to be where nothing is once a database and a history were saved. -/
theorem extends_saved (h : site.Tracks d b) : d.Extends site.saved := by
  rcases h.rests with ⟨rfl, -⟩ | ⟨db, -, hrests⟩
  · exact site.extends_disk.trans site.extends_saved
  · exact hrests.inUse.saved

/-- A session begins with what is on the disk. -/
theorem start (h : site.Tracks d b) :
    ∃ s d', Session.start settings home d = (.ok s, d') ∧ s.Tracks site b := by
  rcases h.rests with ⟨rfl, rfl⟩ | ⟨db, hdb, hrests⟩
  · obtain ⟨c, d', hstart, hfits, hrests⟩ := site.start
    exact ⟨_, d', hstart, rfl, hfits, hrests, h.isKept, h.isNamed⟩
  · exact ⟨_, d, hrests.start hdb.isCurrent, rfl, ⟨rfl, rfl, rfl, hdb⟩, hrests, h.isKept, h.isNamed⟩

end Site.Tracks

namespace Session

/-- What a session does is what a book does, and it holds in the end what the book holds. -/
structure Matches (site : Site settings home disk) (x : Done × Session) (y : Done × Book Registry) : Prop where
  done : x.1 = y.1
  tracks : x.2.Tracks site y.2

/-! ## Work -/

/-- Some work on a session whose history is that of the book, up to launches of configurations that are not in
the map any more. -/
theorem matches_work {r : Registry} {history : History} (hf : s.file = settings.historyIn home)
    (hc : s.connection.Fits site.place r) (hr : site.Rests s.disk s.connection.database history)
    (hw : history.WF) (hn : history.IsNamed) (hs : Registry.store.IsNamed r) (w : Work) :
    Matches site (s.work w)
      ({ printed := (Book.mk r (history.prune Registry.store r)).printed Registry.store w.requests },
        ((Book.mk r (history.prune Registry.store r)).serveAll Registry.store w.requests).2) := by
  have hload : history.prune Registry.store r = (s.file.loadOrEmpty s.disk).prune Registry.store r := by
    rw [hf, hr.loadOrEmpty hw hn]
  have hk : (Book.mk r (history.prune Registry.store r)).IsKept Registry.store :=
    ⟨hw.drop _, History.isBacked_prune _ _ _⟩
  have hnamed : (Book.mk r (history.prune Registry.store r)).IsNamed Registry.store :=
    ⟨fun e he => hn e (History.mem_launches_drop.1 he).1, hs⟩
  obtain ⟨c, hfits, hawaits, hwork⟩ := work_of_fits hc hload hk w
  -- the history is saved after the changes of the database, on the disk that these have left
  obtain ⟨d, hsave, hrests⟩ := (hr.flush hfits hawaits).save
    ((Book.mk r (history.prune Registry.store r)).serveAll Registry.store w.requests).2.history
  rw [hwork d (by rw [hf]; exact hsave)]
  exact ⟨rfl, hf, hfits, hrests, hk.serveAll Registry.keyed_store _, hnamed.serveAll Registry.keyed_store _⟩

namespace Tracks

theorem work (h : s.Tracks site b) (w : Work) :
    Matches site (s.work w)
      ({ printed := b.printed Registry.store w.requests }, (b.serveAll Registry.store w.requests).2) := by
  have hwork := matches_work h.file h.connection h.rests h.isKept.wf h.isNamed.history h.isNamed.store w
  rw [h.isKept.backed.prune_eq] at hwork
  exact hwork

/-- A statement is written at once. -/
theorem advance (h : s.Tracks site b) {c : Connection} {r : Registry} (hc : c.Fits site.place r)
    (ha : s.connection.Awaits c) (hk : (Book.mk r b.history).IsKept Registry.store)
    (hn : (Book.mk r b.history).IsNamed Registry.store) : (s.advance c).Tracks site ⟨r, b.history⟩ :=
  ⟨h.file, hc, h.rests.flush hc ha, hk, hn⟩

/-! ## Commands -/

theorem add (h : s.Tracks site b) (now : Timestamp) {m : Memento} {name : String} {modes : List Mode}
    {isPrivate isTransient : Bool} (hm : m ≠ "") (hy : 0 ≤ now.date.year) (hy' : now.date.year ≤ 9999) :
    Matches site (s.perform now (.add m name modes isPrivate isTransient))
      (b.obey now (.add m name modes isPrivate isTransient)) := by
  obtain ⟨c', happly, hfits, hawaits⟩ :=
    h.connection.save (x := ⟨m, name, modes, isPrivate, isTransient, now⟩) hy hy'
  simp only [perform, Session.add, happly]
  exact ⟨rfl, h.advance hfits hawaits (h.isKept.insert _) (h.isNamed.insert hm)⟩

theorem rename (h : s.Tracks site b) (now : Timestamp) (m : Memento) (name : String) :
    Matches site (s.perform now (.rename m name)) (b.obey now (.rename m name)) := by
  obtain ⟨c', happly, hfits, hawaits⟩ := h.connection.rename m name
  simp only [perform, Session.rename, Book.obey, happly]
  rcases b.store.find m with _ | c
  · exact ⟨rfl, h⟩
  · exact ⟨rfl, h.advance hfits hawaits (h.isKept.rename m name) (h.isNamed.rename m name)⟩

theorem remove (h : s.Tracks site b) (now : Timestamp) (m : Memento) :
    Matches site (s.perform now (.remove m)) (b.obey now (.remove m)) := by
  obtain ⟨c', happly, hfits, hawaits⟩ := h.connection.delete m
  simp only [perform, Book.obey, happly]
  rcases b.store.find m with _ | c
  · exact ⟨rfl, h⟩
  · -- the row is gone when the history is read, and pruning forgets all that is to be forgotten
    have hwork := matches_work (s := s.advance c') h.file hfits (h.rests.flush hfits hawaits) h.isKept.wf
      h.isNamed.history (h.isNamed.erase m) (.forget m)
    rw [h.isKept.prune_erase] at hwork
    have hforgotten : (b.history.removeConfiguration m).removeConfiguration m = b.history.removeConfiguration m :=
      History.drop_drop _ _
    refine ⟨hwork.done, ?_⟩
    show Session.Tracks site _ ⟨b.store.erase m, b.history.removeConfiguration m⟩
    rw [← hforgotten]
    exact hwork.tracks

/-- The name of a configuration is found in the database as in the map. -/
theorem launchOf (h : s.Tracks site b) (m : Memento) (mode : Mode) (label : Option String) :
    s.launchOf m mode label = .ok ⟨m, mode, b.labelFor m label⟩ := by
  unfold Session.launchOf
  rcases label with _ | l
  · simp only
    rw [h.connection.holds.get]
    rfl
  · rfl

theorem record (h : s.Tracks site b) (now : Timestamp) (m : Memento) (mode : Mode) (label : Option String) :
    Matches site (s.perform now (.record m mode label)) (b.obey now (.record m mode label)) := by
  simp only [perform, h.launchOf]
  exact h.work (.record ⟨m, mode, b.labelFor m label⟩)

theorem list (h : s.Tracks site b) (now : Timestamp) (mode : Option Mode) :
    Matches site (s.perform now (.list mode)) (b.obey now (.list mode)) := by
  rcases mode with _ | mode
  · exact h.work (.lists [.run, .debug])
  · have hwork := h.work (.lists [mode])
    refine ⟨hwork.done.trans ?_, hwork.tracks⟩
    show Done.mk (b.listing mode ++ []) _ = _
    rw [List.append_nil]
    rfl

theorem last (h : s.Tracks site b) (now : Timestamp) : Matches site (s.perform now .last) (b.obey now .last) := by
  have hwork := h.work .last
  refine ⟨hwork.done.trans ?_, hwork.tracks⟩
  show Done.mk (Session.report .latest (.latest b.history.latest) ++ []) _ = _
  unfold Book.obey Book.latestLine
  rcases b.history.latest with _ | e <;> rfl

end Tracks

end Session

end RecentLaunches
