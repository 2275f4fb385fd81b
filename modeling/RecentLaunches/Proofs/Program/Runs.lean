/-
Runs of the program, one after the other, on a disk with room for the state. Every run begins with what the
last one left and leaves what the next one begins with; all that is shown is what one book in memory says that
takes the commands in turn, and naming a configuration changes nothing that is in the history.
-/
import RecentLaunches.Proofs.History.Series
import RecentLaunches.Proofs.Program.Commands

namespace RecentLaunches

variable {settings : Settings} {home : Home} {disk d : Disk} {site : Site settings home disk}
  {b : Book Registry} {s : Session} {now : Timestamp} {w : Wording}

/-! ## One run -/

/-- A command that the book speaks of. It does not list all configurations, and a configuration has a memento
and is added in a year that is written with four digits, as it is read back. -/
def Command.IsEntry (now : Timestamp) : Command → Prop
  | .add memento _ _ _ _ => memento ≠ "" ∧ 0 ≤ now.date.year ∧ now.date.year ≤ 9999
  | .configs => False
  | _ => True

instance Command.decidableIsEntry (now : Timestamp) : ∀ c : Command, Decidable (c.IsEntry now)
  | .add memento _ _ _ _ => inferInstanceAs (Decidable (memento ≠ "" ∧ 0 ≤ now.date.year ∧ now.date.year ≤ 9999))
  | .configs => inferInstanceAs (Decidable False)
  | .rename .. | .remove .. | .record .. | .list .. | .last => inferInstanceAs (Decidable True)

namespace Session.Tracks

theorem perform (h : s.Tracks site b) {c : Command} (hc : c.IsEntry now) :
    Matches site (s.perform now c) (b.obey now c) := by
  cases c with
  | add memento name modes isPrivate isTransient => exact h.add now hc.1 hc.2.1 hc.2.2
  | rename memento name => exact h.rename now memento name
  | remove memento => exact h.remove now memento
  | record memento mode label => exact h.record now memento mode label
  | list mode => exact h.list now mode
  | last => exact h.last now
  | configs => exact hc.elim

/-- Nothing is left to do when a session on a file ends. -/
theorem close (h : s.Tracks site b) : site.Tracks s.close b := by
  have hclose : s.close = s.disk := by
    unfold Session.close Connection.close
    rw [h.connection.medium]
  rw [hclose]
  exact ⟨.inr ⟨s.connection.database, h.connection.holds, h.rests⟩, h.isKept, h.isNamed⟩

end Session.Tracks

/-- A run of the program: its moment, and a command line that is well formed. -/
structure Call where
  now : Timestamp
  arguments : List String
  invocation : Invocation
  reads : Invocation.read arguments = .ok invocation

namespace Call

/-- What a call shows, and the disk after it. -/
def run (w : Wording) (home : Home) (c : Call) (d : Disk) : Outcome × Disk :=
  Program.run w ⟨home, c.now⟩ c.arguments d

/-- The disk after a call. It does not depend on what is said about texts that cannot be read. -/
def after (home : Home) (d : Disk) (c : Call) : Disk :=
  (Program.invoke ⟨home, c.now⟩ c.invocation d).2

/-- The settings that a call finds on a disk. -/
def settingsOn (home : Home) (d : Disk) (c : Call) : Settings :=
  Program.settings home c.invocation.settings d

def order (c : Call) : Timestamp × Command :=
  (c.now, c.invocation.command)

def IsEntry (c : Call) : Prop :=
  c.invocation.command.IsEntry c.now

instance (c : Call) : Decidable c.IsEntry :=
  inferInstanceAs (Decidable (c.invocation.command.IsEntry c.now))

/-- What some calls show, one after the other, and the disk after them. -/
def runAll (w : Wording) (home : Home) : List Call → Disk → List Outcome × Disk
  | [], d => ([], d)
  | c :: rest, d =>
    ((c.run w home d).1 :: (runAll w home rest (c.run w home d).2).1, (runAll w home rest (c.run w home d).2).2)

theorem run_eq (w : Wording) (home : Home) (c : Call) (d : Disk) :
    c.run w home d = (Program.shown w (Program.invoke ⟨home, c.now⟩ c.invocation d).1, c.after home d) := by
  unfold run Program.run
  rw [c.reads]
  rfl

end Call

/-- A call does what the book says, and the disk holds again what the book holds. -/
theorem Site.Tracks.invoke (h : site.Tracks d b) {c : Call} (hc : c.IsEntry) (hs : c.settingsOn home d = settings) :
    (Program.invoke ⟨home, c.now⟩ c.invocation d).1 = (b.obey c.now c.invocation.command).1 ∧
      site.Tracks (c.after home d) (b.obey c.now c.invocation.command).2 := by
  obtain ⟨s, d', hstart, hs'⟩ := h.start
  have hmatches := hs'.perform hc
  have hinvoke : Program.invoke ⟨home, c.now⟩ c.invocation d =
      ((s.perform c.now c.invocation.command).1, (s.perform c.now c.invocation.command).2.close) := by
    unfold Program.invoke
    simp only
    rw [show Program.settings home c.invocation.settings d = settings from hs, hstart]
  unfold Call.after
  rw [hinvoke]
  exact ⟨hmatches.done, hmatches.tracks.close⟩

/-! ## Many runs -/

/-- The history that is kept stays as it is where a configuration is named. -/
def Call.KeepsNamed (home : Home) (file : HistoryFile) (d : Disk) (c : Call) : Prop :=
  c.invocation.command.names = true → file.loadOrEmpty (c.after home d) = file.loadOrEmpty d

theorem Site.Tracks.runAll (h : site.Tracks d b) {calls : List Call} (hentry : ∀ c ∈ calls, c.IsEntry)
    (hsame : Along (Call.after home) (fun d c => c.settingsOn home d = settings) d calls) :
    (Call.runAll w home calls d).1 = (b.obeyAll w (calls.map Call.order)).1 ∧
      site.Tracks (Call.runAll w home calls d).2 (b.obeyAll w (calls.map Call.order)).2 ∧
      Along (Call.after home) (Call.KeepsNamed home (settings.historyIn home)) d calls := by
  induction calls generalizing d b with
  | nil => exact ⟨rfl, h, trivial⟩
  | cons c calls ih =>
    -- the disk that a call leaves holds the book that the next call is compared with
    obtain ⟨hs, hrest⟩ := hsame
    obtain ⟨hdone, hnext⟩ := h.invoke (hentry c List.mem_cons_self) hs
    obtain ⟨hshown, hend, hnames⟩ := ih hnext (fun c hc => hentry c (List.mem_cons_of_mem _ hc)) hrest
    simp only [Call.runAll, c.run_eq, hdone]
    refine ⟨congrArg (_ :: ·) hshown, hend, fun hnamed => ?_, hnames⟩
    rw [hnext.loadOrEmpty, h.loadOrEmpty, Book.history_obey_of_names c.now b hnamed]

/-- On a disk with room for the state, calls that find the same settings show what one book in memory says
that takes their commands in turn, and the history that is kept in the end is the one of the book. None of them
that names a configuration changes what is in the history. -/
theorem Site.runAll_eq_obeyAll (site : Site settings home disk) (w : Wording) (calls : List Call)
    (hentry : ∀ c ∈ calls, c.IsEntry)
    (hsame : Along (Call.after home) (fun d c => c.settingsOn home d = settings) disk calls) :
    (Call.runAll w home calls disk).1 = (Book.unused.obeyAll w (calls.map Call.order)).1 ∧
      (settings.historyIn home).loadOrEmpty (Call.runAll w home calls disk).2 =
        (Book.unused.obeyAll w (calls.map Call.order)).2.history ∧
      Along (Call.after home) (Call.KeepsNamed home (settings.historyIn home)) disk calls := by
  obtain ⟨hshown, hend, hnames⟩ := site.tracks_unused.runAll hentry hsame
  exact ⟨hshown, hend.loadOrEmpty, hnames⟩

/-- Where there is no settings file and none comes to be, every call finds the usual settings. -/
theorem Site.Tracks.along_settingsOn {site : Site {} home disk} (h : site.Tracks d b) {calls : List Call}
    (hentry : ∀ c ∈ calls, c.IsEntry)
    (hmissing : ∀ c ∈ calls, site.saved.exists? (Program.settingsPath home c.invocation.settings) = false) :
    Along (Call.after home) (fun d c => c.settingsOn home d = {}) d calls := by
  induction calls generalizing d b with
  | nil => trivial
  | cons c calls ih =>
    have hs : c.settingsOn home d = {} := by
      unfold Call.settingsOn Program.settings Settings.loadFrom
      rw [h.extends_saved.exists?_eq_false (hmissing c List.mem_cons_self)]
      rfl
    obtain ⟨-, hnext⟩ := h.invoke (hentry c List.mem_cons_self) hs
    exact ⟨hs, ih hnext (fun c hc => hentry c (List.mem_cons_of_mem _ hc))
      fun c hc => hmissing c (List.mem_cons_of_mem _ hc)⟩

/-! ## A site -/

/-- Nothing is said about texts that cannot be read. -/
def Wording.silent : Wording :=
  ⟨fun _ => "", fun _ => "", fun _ => ""⟩

/-- A user whose home is the root. -/
def Home.ofRoot : Home :=
  ⟨"/", none, none⟩

/-- There is room for the state on a disk with nothing on it. -/
def Site.ofRoot : Site {} .ofRoot { here := [] } where
  made :=
    { here := [], nodes := [([".local", "share", "relaunch"], .directory), ([".local", "share"], .directory),
        ([".local"], .directory)] }
  makeDirs := rfl
  address := { path := "/.local/share/relaunch/relaunch.db" }
  address_eq := rfl
  isInMemory := rfl
  access := rfl
  isImmutable := rfl
  model := rfl
  place := [".local", "share", "relaunch", "relaunch.db"]
  isVacant := rfl
  isDirectoryAt := rfl
  takesJournal := rfl
  exists_history := rfl
  saved :=
    { here := [], nodes := [([".local", "share", "relaunch", "launch_history.xml"], .file (.ofText "")),
        ([".local", "share", "relaunch", "relaunch.db"], .file (.database .fresh)),
        ([".local", "share", "relaunch"], .directory), ([".local", "share"], .directory), ([".local"], .directory)] }
  save := rfl
  location? := rfl
  database := rfl
  journal := rfl
  log := rfl

namespace Call

def today : Timestamp :=
  (Book.passing "").createdAt

/-- A configuration is launched, renamed and removed. -/
def career : List Call :=
  [⟨today, ["add", "a", "A"], ⟨none, .add "a" "A" [.run, .debug] false false⟩, by decide +kernel⟩,
    ⟨today, ["record", "a", "run"], ⟨none, .record "a" .run none⟩, by decide +kernel⟩,
    ⟨today, ["rename", "a", "B"], ⟨none, .rename "a" "B"⟩, by decide +kernel⟩,
    ⟨today, ["record", "a", "debug"], ⟨none, .record "a" .debug none⟩, by decide +kernel⟩,
    ⟨today, ["list"], ⟨none, .list none⟩, by decide +kernel⟩,
    ⟨today, ["remove", "a"], ⟨none, .remove "a"⟩, by decide +kernel⟩,
    ⟨today, ["remove", "a"], ⟨none, .remove "a"⟩, by decide +kernel⟩,
    ⟨today, ["last"], ⟨none, .last⟩, by decide +kernel⟩]

/-- The lists show the names that the configuration was launched with, until it is removed. -/
theorem runAll_career :
    (∀ c ∈ career, c.IsEntry) ∧
    Along (after .ofRoot) (fun d c => c.settingsOn .ofRoot d = {}) { here := [] } career ∧
    (runAll .silent .ofRoot career { here := [] }).1 =
      [⟨0, "Added A (a)\n", ""⟩, ⟨0, "Recorded run launch of a\n", ""⟩, ⟨0, "Renamed a to B\n", ""⟩,
        ⟨0, "Recorded debug launch of a\n", ""⟩, ⟨0, "run:\n  1. A (a)\ndebug:\n  1. B (a)\n", ""⟩,
        ⟨0, "Removed a\n", ""⟩, ⟨1, "", "relaunch: Not found: launch configuration a\n"⟩,
        ⟨0, "No launches yet\n", ""⟩] := by
  have hentry : ∀ c ∈ career, c.IsEntry := by decide
  have hsame : Along (after .ofRoot) (fun d c => c.settingsOn .ofRoot d = {}) { here := [] } career :=
    Site.ofRoot.tracks_unused.along_settingsOn hentry (by decide +kernel)
  refine ⟨hentry, hsame, ?_⟩
  rw [(Site.ofRoot.runAll_eq_obeyAll .silent career hentry hsame).1]
  decide +kernel

/-! ## Where there is no room -/

/-- A disk with an empty directory that one is in, and a settings file elsewhere. -/
def inWork (text : String) : Disk where
  here := ["work"]
  nodes := [(["s.toml"], .file (.ofText text)), (["work"], .directory)]

/-- A configuration is launched, and the list is shown. -/
def launched (now : Timestamp) : List Call :=
  [⟨now, ["--settings", "/s.toml", "add", "a", "A"],
      ⟨some "/s.toml", .add "a" "A" [.run, .debug] false false⟩, by decide +kernel⟩,
    ⟨now, ["--settings", "/s.toml", "record", "--label", "A", "a", "run"],
      ⟨some "/s.toml", .record "a" .run (some "A")⟩, by decide +kernel⟩,
    ⟨now, ["--settings", "/s.toml", "list", "run"], ⟨some "/s.toml", .list (some .run)⟩, by decide +kernel⟩]

def late : Timestamp :=
  { today with date := ⟨10000, 1, 1, by decide⟩ }

/-- A history and a database that have different paths, and calls that find the same settings and show
something else than the book says. -/
def Strays (settings : Settings) (text : String) (calls : List Call) : Prop :=
  (settings.historyIn .ofRoot).path ≠ settings.databaseIn .ofRoot ∧
    Along (after .ofRoot) (fun d c => c.settingsOn .ofRoot d = settings) (inWork text) calls ∧
    (runAll .silent .ofRoot calls (inWork text)).1 ≠ (Book.unused.obeyAll .silent (calls.map order)).1

/-- Different paths are not enough. The history can be kept where the journal of the database goes, and is taken
away with it; the database can have the name of one that is in no file; and a configuration that is added too late
has a moment that cannot be read back. -/
theorem strays_of_distinct_paths :
    Strays { stateDir := some "state", historyFile := "relaunch.db-journal" }
        "state_dir = \"state\"\nhistory_file = \"relaunch.db-journal\"\n" (launched today) ∧
      Strays { stateDir := some "", databaseFile := ":memory:" }
        "state_dir = \"\"\ndatabase_file = \":memory:\"\n" (launched today) ∧
      Strays {} "" (launched late) := by
  refine ⟨⟨?_, ?_, ?_⟩, ⟨?_, ?_, ?_⟩, ⟨?_, ?_, ?_⟩⟩ <;> decide +kernel

end Call

end RecentLaunches
