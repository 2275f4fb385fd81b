/-
Commands that only show the history. A run of one opens and closes the database, and reads, prunes and saves the
history all the same. As long as the history is kept apart from the database, all of that is done after the first
run: the next one shows the same and changes nothing.
-/
import RecentLaunches.Proofs.Database.Resting
import RecentLaunches.Proofs.History.Resaving
import RecentLaunches.Proofs.Program.Runs

namespace RecentLaunches

/-! ## Queries -/

def Request.isQuery : Request → Bool
  | .history _ | .latest => true
  | _ => false

/-- The work of a command that only shows the history. -/
def Command.query? : Command → Option Session.Work
  | .list none => some (.lists [.run, .debug])
  | .list (some mode) => some (.lists [mode])
  | .last => some .last
  | _ => none

theorem Command.isQuery_of_query? {c : Command} {w : Session.Work} (h : c.query? = some w) :
    ∀ r ∈ w.requests, r.isQuery = true := by
  unfold query? at h
  split at h <;> cases h <;> simp [Session.Work.requests, Request.isQuery]

theorem Session.perform_of_query? {c : Command} {w : Work} (h : c.query? = some w) (now : Timestamp) (s : Session) :
    s.perform now c = s.work w := by
  unfold Command.query? at h
  split at h <;> cases h <;> rfl

section

variable {σ : Type} {S : Store σ} {b b' : Book σ} {rs : List Request}

theorem Book.serve_of_isQuery {r : Request} (b : Book σ) (h : r.isQuery = true) : (b.serve S r).2 = b := by
  cases r <;> first | rfl | cases h

theorem Book.serveAll_of_isQuery (b : Book σ) (h : ∀ r ∈ rs, r.isQuery = true) : (b.serveAll S rs).2 = b := by
  induction rs generalizing b with
  | nil => rfl
  | cons r rs ih =>
    rw [serveAll, b.serve_of_isQuery (h r (List.mem_cons_self ..))]
    exact ih b fun q hq => h q (List.mem_cons_of_mem _ hq)

/-- Queries are answered from the history alone. -/
theorem Book.printed_of_isQuery (hb : b'.history = b.history) (h : ∀ r ∈ rs, r.isQuery = true) :
    b'.printed S rs = b.printed S rs := by
  induction rs with
  | nil => rfl
  | cons r rs ih =>
    have hr := h r (List.mem_cons_self ..)
    have hline : b'.line S r = b.line S r := by
      unfold line
      cases r with
      | history mode => simp only [serve, hb]
      | latest => simp only [serve, hb]
      | _ => cases hr
    rw [printed, printed, b.serve_of_isQuery hr, b'.serve_of_isQuery hr, hline,
      ih fun q hq => h q (List.mem_cons_of_mem _ hq)]

end

/-! ## One run -/

theorem Connection.flush_of_isChanged_eq_false {c : Connection} (h : c.isChanged = false) (d : Disk) :
    c.flush d = d := by
  unfold flush
  rw [h]
  rfl

namespace Session

/-- Queries print what the history says that is begun with, and save it as it is. -/
theorem work_of_isQuery {s : Session} {w : Work} (hw : ∀ r ∈ w.requests, r.isQuery = true)
    (hc : s.connection.isChanged = false) {history : History}
    (hh : history = s.file.begun Connection.store s.connection s.disk) :
    s.work w =
      ({ printed := (Book.mk s.connection history).printed Connection.store w.requests,
         result := (s.file.save s.disk history).1 },
        { s with disk := (s.file.save s.disk history).2 }) := by
  have hkept : (Book.mk s.connection history).IsKept Connection.store := by
    rw [hh]
    exact ⟨(HistoryFile.sound_begun _ _ _ _).wf, HistoryFile.isBacked_begun _ _ _ _⟩
  rw [work_of_isKept hh hkept w (Book.serveAll_of_isQuery _ hw).symm, Connection.flush_of_isChanged_eq_false hc]

end Session

variable {settings : Settings} {home : Home} {d made opened : Disk} {k : Connection}

/-- A session begins with a database whose schema is current as it is. -/
theorem Session.start_of_connect (hm : d.makeDirs (settings.stateIn home) = (.ok (), made))
    (hk : (DatabaseFile.mk (settings.databaseIn home)).connect made = (.ok k, opened)) (hc : k.isChanged = false)
    (hmigrate : k.database.migrate = (k.database, .ok ())) :
    Session.start settings home d = (.ok ⟨k, settings.historyIn home, opened⟩, opened) := by
  have hmigrated : k.migrate = (.ok (), k) := by
    unfold Connection.migrate Connection.commit
    rw [hmigrate]
    simp only [if_true]
  have hopen : (DatabaseFile.mk (settings.databaseIn home)).openOn made = (.ok k, opened) := by
    unfold DatabaseFile.openOn
    simp only [hk, hmigrated, Connection.flush_of_isChanged_eq_false hc]
  unfold Session.start
  simp only [hm, hopen]

/-- A run that only shows the history, where the database can be opened as it is. -/
theorem Call.invoke_of_query? {c : Call} {w : Session.Work} (hw : c.invocation.command.query? = some w)
    (hs : c.settingsOn home d = settings) (hm : d.makeDirs (settings.stateIn home) = (.ok (), made))
    (hk : (DatabaseFile.mk (settings.databaseIn home)).connect made = (.ok k, opened)) (hc : k.isChanged = false)
    (hmigrate : k.database.migrate = (k.database, .ok ())) {history : History}
    (hh : history = (settings.historyIn home).begun Connection.store k opened) :
    Program.invoke ⟨home, c.now⟩ c.invocation d =
      ({ printed := (Book.mk k history).printed Connection.store w.requests,
         result := ((settings.historyIn home).save opened history).1 },
        k.close ((settings.historyIn home).save opened history).2) := by
  unfold Program.invoke
  simp only
  rw [show Program.settings home c.invocation.settings d = settings from hs,
    Session.start_of_connect hm hk hc hmigrate]
  simp only
  rw [Session.perform_of_query? hw,
    Session.work_of_isQuery (s := ⟨k, settings.historyIn home, opened⟩) (Command.isQuery_of_query? hw) hc hh]
  rfl

/-! ## One run after another -/

theorem Program.out_shown (w : Wording) (x : Done) : (shown w x).out = String.join (x.printed.map (· ++ "\n")) := by
  unfold shown
  rcases x.result with e | ⟨⟩ <;> rfl

theorem Program.code_shown (w : Wording) (x : Done) : (shown w x).code = if x.result.isOk then 0 else 1 := by
  unfold shown
  rcases x.result with e | ⟨⟩ <;> rfl

/-- What is begun with depends on the database of a connection alone. -/
theorem HistoryFile.begun_of_database {k' : Connection} (h : k'.database = k.database) (f : HistoryFile) (d : Disk) :
    f.begun Connection.store k' d = f.begun Connection.store k d := by
  refine History.drop_congr fun e _ => ?_
  unfold Store.isGone Connection.store
  simp only [h]

/-- A disk with a database that is opened as it is, and a way to the history that leads through none of the places
of the database. Nothing is said about what the history file holds, or whether there is one. -/
structure Layout (settings : Settings) (home : Home) (disk : Disk) where
  /-- The disk with the directory for state. -/
  made : Disk
  makeDirs : disk.makeDirs (settings.stateIn home) = (.ok (), made)
  address : DatabaseAddress
  place : Location
  found : (DatabaseFile.mk (settings.databaseIn home)).FoundAt address place made
  database : Database
  node : disk.node? place = some (.file (.database database))
  migrate : database.migrate = (database, .ok ())
  opens : ∃ k opened, (DatabaseFile.mk (settings.databaseIn home)).connect made = (.ok k, opened)
  apart : ∀ x ∈ Disk.way made.here (settings.historyIn home).path, x ∉ DatabaseFile.places place

namespace Layout

variable (layout : Layout settings home d) {c : Call} {w : Session.Work}

/-- No place on the way to the history is one of the database, on any disk with the same directory that one is in. -/
theorem notMem_places {e : Disk} (he : e.here = layout.made.here) :
    ∀ x ∈ Disk.way e.here (settings.historyIn home).path, x ∉ DatabaseFile.places layout.place := by
  rw [he]
  exact layout.apart

/-- The first run shows what is begun with and saves it. The database is at rest after it, and nothing else is
touched once the history is saved. -/
theorem exists_run (hw : c.invocation.command.query? = some w) (hs : c.settingsOn home d = settings) :
    ∃ k opened history r saved,
      k.database = layout.database ∧ history = (settings.historyIn home).begun Connection.store k opened ∧
      (settings.historyIn home).save opened history = (r, saved) ∧ saved.here = layout.made.here ∧
      (Program.invoke ⟨home, c.now⟩ c.invocation d).1 =
        { printed := (Book.mk k history).printed Connection.store w.requests, result := r } ∧
      layout.made.Steady (c.after home d) ∧
      Disk.AgreeOn (· ∉ DatabaseFile.places layout.place) saved (c.after home d) ∧
      DatabaseFile.IsAtRest layout.address layout.place (c.after home d) layout.database := by
  obtain ⟨k, opened, hk⟩ := layout.opens
  have hnode : layout.made.node? layout.place = some (.file (.database layout.database)) :=
    (Disk.keeps_makeDirs layout.makeDirs).node layout.node
  obtain ⟨hdb, hchanged, hopened, hclose⟩ := DatabaseFile.connect_close layout.found hnode hk
  obtain ⟨history, hh⟩ : ∃ history, history = (settings.historyIn home).begun Connection.store k opened := ⟨_, rfl⟩
  have hinvoke := Call.invoke_of_query? hw hs layout.makeDirs hk hchanged (by rw [hdb]; exact layout.migrate) hh
  have hsaved : opened.Steady ((settings.historyIn home).save opened history).2 := Disk.steady_save opened _ _
  -- saving the history leaves the places of the database alone
  obtain ⟨-, -, hframe⟩ :=
    HistoryFile.save_of_agreeOn (Disk.AgreeOn.refl _ opened) (layout.notMem_places hopened.here) history
  obtain ⟨hsteady, hagree, hrest⟩ := hclose _ (hframe.mono fun x hx hn => hn hx)
  refine ⟨k, opened, history, ((settings.historyIn home).save opened history).1,
    ((settings.historyIn home).save opened history).2, hdb, hh, rfl, hsaved.here.trans hopened.here, ?_, ?_⟩
  · rw [hinvoke]
  · unfold Call.after
    rw [hinvoke]
    exact ⟨hopened.trans (hsaved.trans hsteady), hagree, hrest⟩

/-- A run on a disk where the database is at rest does nothing but show what is begun with and save it. -/
theorem exists_run_of_isAtRest {e : Disk} (hw : c.invocation.command.query? = some w)
    (hs : c.settingsOn home e = settings) (hsteady : layout.made.Steady e)
    (hrest : DatabaseFile.IsAtRest layout.address layout.place e layout.database)
    (hfound : (DatabaseFile.mk (settings.databaseIn home)).FoundAt layout.address layout.place e) :
    ∃ k opened, k.database = layout.database ∧ Disk.AgreeOn (fun _ => True) e opened ∧
      ∀ history, history = (settings.historyIn home).begun Connection.store k opened →
        Program.invoke ⟨home, c.now⟩ c.invocation e =
          ({ printed := (Book.mk k history).printed Connection.store w.requests,
             result := ((settings.historyIn home).save opened history).1 },
            ((settings.historyIn home).save opened history).2) := by
  obtain ⟨k, opened, hk, hdb, hchanged, hagree, hclose⟩ := hrest.connect hfound
  refine ⟨k, opened, hdb, hagree, fun history hh => ?_⟩
  have hdirs := Disk.makeDirs_of_steady layout.makeDirs hsteady
  rw [Call.invoke_of_query? hw hs hdirs hk hchanged (by rw [hdb]; exact layout.migrate) hh, hclose]

/-- Showing the history twice shows the same twice, and nothing on the disk changes the second time. The stored
configurations do not change at all. -/
theorem run_again (words : Wording) {c' : Call} (hquery : c.invocation.command.query?.isSome)
    (hsame : c'.invocation.command = c.invocation.command) (hs : c.settingsOn home d = settings)
    (hs' : c'.settingsOn home (c.after home d) = settings)
    (hfound : (DatabaseFile.mk (settings.databaseIn home)).FoundAt layout.address layout.place (c.after home d)) :
    (c'.run words home (c.after home d)).1.out = (c.run words home d).1.out ∧
      (c'.run words home (c.after home d)).1.code = (c.run words home d).1.code ∧
      (∀ x, (c'.after home (c.after home d)).node? x = (c.after home d).node? x) ∧
      (c.after home d).node? layout.place = d.node? layout.place := by
  obtain ⟨w, hw⟩ := Option.isSome_iff_exists.1 hquery
  have hw' : c'.invocation.command.query? = some w := by rw [hsame, hw]
  obtain ⟨k, opened, history, r, saved, hdb, hh, hsave, hhere, hdone, hsteady, hagree, hrest⟩ :=
    layout.exists_run hw hs
  obtain ⟨k', opened', hdb', hopened', hinvoke⟩ := layout.exists_run_of_isAtRest hw' hs' hsteady hrest hfound
  -- the second run begins with what the first one saved, and saves it as the first one did
  have hagree' := hagree.trans (hopened'.mono fun _ _ => trivial)
  have hway := layout.notMem_places hhere
  obtain ⟨hbegun, hok, hstill⟩ := HistoryFile.save_begun (hh ▸ hsave)
  rw [← hh] at hbegun hok hstill
  have hh' : history = (settings.historyIn home).begun Connection.store k' opened' := by
    rw [HistoryFile.begun_of_agreeOn hagree' hway, HistoryFile.begun_of_database (hdb'.trans hdb.symm), hbegun]
  obtain ⟨hresult, hnear, hfar⟩ := HistoryFile.save_of_agreeOn hagree' hway history
  have hprinted : (Book.mk k' history).printed Connection.store w.requests =
      (Book.mk k history).printed Connection.store w.requests :=
    Book.printed_of_isQuery rfl (Command.isQuery_of_query? hw)
  specialize hinvoke history hh'
  refine ⟨?_, ?_, fun x => ?_, hrest.node.trans layout.node.symm⟩
  · rw [c'.run_eq, c.run_eq, hinvoke, hdone, Program.out_shown, Program.out_shown, hprinted]
  · rw [c'.run_eq, c.run_eq, hinvoke, hdone, Program.code_shown, Program.code_shown, hresult, hok]
  · show (Program.invoke ⟨home, c'.now⟩ c'.invocation (c.after home d)).2.node? x = _
    rw [hinvoke]
    by_cases hx : x ∈ DatabaseFile.places layout.place
    · exact (hfar.node x fun hn => hn hx).trans (hopened'.node x trivial)
    · exact (hnear.node x hx).trans ((hstill x).trans (hagree.node x hx).symm)

end Layout

/-! ## A history in disarray -/

def Database.ofA : Database :=
  ((Book.mk .fresh .empty).change (.save (Book.passing "a"))).store

/-- A history that repeats a launch and has one of a configuration that is not there, beside a database. -/
def Disk.inDisarray : Disk where
  here := []
  nodes :=
    [([".local", "share", "relaunch", "launch_history.xml"],
        .file (.ofText ("<launchHistory><launch memento='b' mode='run'/>" ++
          "<launch memento='a' mode='run' label='A'/><launch memento='a' mode='run'/></launchHistory>"))),
      ([".local", "share", "relaunch", "relaunch.db"], .file (.database .ofA)),
      ([".local", "share", "relaunch"], .directory), ([".local", "share"], .directory), ([".local"], .directory)]

def Layout.ofRoot : Layout {} .ofRoot .inDisarray where
  made := .inDisarray
  makeDirs := rfl
  address := { path := "/.local/share/relaunch/relaunch.db" }
  place := [".local", "share", "relaunch", "relaunch.db"]
  found := ⟨rfl, rfl, rfl, rfl⟩
  database := .ofA
  node := rfl
  migrate := by decide +kernel
  opens := ⟨_, _, rfl⟩
  apart := by decide +kernel

namespace Call

theorem read_list : Invocation.read ["list"] = .ok ⟨none, .list none⟩ := by
  decide +kernel

def listing : Call :=
  ⟨today, ["list"], ⟨none, .list none⟩, read_list⟩

/-- What is left of the history is shown twice. -/
theorem run_again_inDisarray :
    (listing.run .silent .ofRoot .inDisarray).1 = ⟨0, "run:\n  1. A (a)\ndebug:\n", ""⟩ ∧
      (listing.run .silent .ofRoot (listing.after .ofRoot .inDisarray)).1.out = "run:\n  1. A (a)\ndebug:\n" ∧
      ∀ x, (listing.after .ofRoot (listing.after .ofRoot .inDisarray)).node? x =
        (listing.after .ofRoot .inDisarray).node? x := by
  have hfirst : (listing.run .silent .ofRoot .inDisarray).1 = ⟨0, "run:\n  1. A (a)\ndebug:\n", ""⟩ := by decide +kernel
  have hsame : listing.invocation.command = listing.invocation.command := rfl
  obtain ⟨hout, -, hstill, -⟩ := Layout.ofRoot.run_again .silent rfl hsame (by decide +kernel) (by decide +kernel)
    ⟨rfl, rfl, by decide +kernel, by decide +kernel⟩
  refine ⟨hfirst, ?_, hstill⟩
  rw [hout, hfirst]

/-! ## Where the history is among the files of the database -/

theorem read_add : Invocation.read ["--settings", "/s.toml", "add", "a", "A"] =
    .ok ⟨some "/s.toml", .add "a" "A" [.run, .debug] false false⟩ := by
  decide +kernel

/-- A disk with a database that a configuration was registered in, where the history is to be kept in a file of the
same directory. -/
def registered (history : String) : Disk :=
  after .ofRoot (inWork ("state_dir = \"state\"\nhistory_file = \"" ++ history ++ "\"\n"))
    ⟨today, ["--settings", "/s.toml", "add", "a", "A"],
      ⟨some "/s.toml", .add "a" "A" [.run, .debug] false false⟩, read_add⟩

def recording : Call :=
  ⟨today, ["--settings", "/s.toml", "record", "a", "run"], ⟨some "/s.toml", .record "a" .run none⟩, by decide +kernel⟩

def asking : Call :=
  ⟨today, ["--settings", "/s.toml", "list"], ⟨some "/s.toml", .list none⟩, by decide +kernel⟩

/-- The history has another path than the database, and the database is opened as it is. -/
def IsReady (history : String) (d : Disk) : Prop :=
  let settings : Settings := { stateDir := some "state", historyFile := history }
  (settings.historyIn .ofRoot).path ≠ settings.databaseIn .ofRoot ∧ asking.settingsOn .ofRoot d = settings ∧
    ((DatabaseFile.mk (settings.databaseIn .ofRoot)).openOn d).1.toOption.map (·.isChanged) = some false

/-- Different paths are not enough. A history that has the name of the database's log is taken for one and taken
away by the first run, so that the second one shows an empty list; a directory that has the name of the journal is
made by the first run for the history in it, and keeps the second one from opening the database. -/
theorem unsettled_of_distinct_paths :
    let inLog := recording.after .ofRoot (registered "relaunch.db-wal")
    let inJournal := registered "relaunch.db-journal/h.xml"
    (IsReady "relaunch.db-wal" inLog ∧
      (asking.run .silent .ofRoot inLog).1 = ⟨0, "run:\n  1. A (a)\ndebug:\n", ""⟩ ∧
      (asking.run .silent .ofRoot (asking.after .ofRoot inLog)).1 = ⟨0, "run:\ndebug:\n", ""⟩) ∧
    IsReady "relaunch.db-journal/h.xml" inJournal ∧
      (asking.run .silent .ofRoot inJournal).1 = ⟨0, "run:\ndebug:\n", ""⟩ ∧
      (asking.run .silent .ofRoot (asking.after .ofRoot inJournal)).1 =
        ⟨1, "", "relaunch: Database error: disk I/O error\n"⟩ := by
  refine ⟨⟨⟨?_, ?_, ?_⟩, ?_, ?_⟩, ⟨?_, ?_, ?_⟩, ?_, ?_⟩ <;> decide +kernel

end Call

end RecentLaunches
