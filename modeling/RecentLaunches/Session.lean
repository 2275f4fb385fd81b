/-
One run of the program on a user's state: the database is opened, a command is carried out, and what
it changed is put back. Configurations are changed in the database itself; the history is changed by
a service that begins with the kept history and saves it when the command is done.
-/
import RecentLaunches.DatabaseFile
import RecentLaunches.Invocation
import RecentLaunches.Service
import RecentLaunches.Settings

namespace RecentLaunches

/-- The state of a user while a command is carried out. -/
structure Session where
  connection : Connection
  file : HistoryFile
  disk : Disk

/-- What a command leads to: what is printed, and whether it failed. -/
structure Done where
  printed : List String := []
  result : Except Fault Unit := .ok ()

namespace Session

/-- Opens the state that settings speak of, making its directory if it is missing. -/
def start (settings : Settings) (home : Home) (disk : Disk) : Except Fault Session × Disk :=
  match disk.makeDirs (settings.stateIn home) with
  | (.error e, disk) => (.error (.disk e), disk)
  | (.ok (), disk) =>
    match (DatabaseFile.mk (settings.databaseIn home)).openOn disk with
    | (.error e, disk) => (.error (.database e), disk)
    | (.ok c, disk) => (.ok ⟨c, settings.historyIn home, disk⟩, disk)

/-- The session after a statement on its database, with what the statement changed on the disk. -/
def advance (s : Session) (c : Connection) : Session :=
  { s with connection := c, disk := c.flush s.disk }

/-- The disk after a session. -/
def close (s : Session) : Disk :=
  s.connection.close s.disk

/-! ## Configurations -/

/-- A command that failed and printed nothing. -/
def failed (f : Fault) : Done :=
  ⟨[], .error f⟩

/-- Registers a configuration, in the place of one with its memento. -/
def add (s : Session) (c : Configuration) : Done × Session :=
  match s.connection.apply fun d => (d.save c).map ((), ·) with
  | .error e => (failed (.database e), s)
  | .ok (_, connection) =>
    ({ printed := ["Added " ++ c.name ++ " (" ++ c.memento ++ ")"] }, s.advance connection)

/-- Gives a configuration another name. What the history shows stays as it is. -/
def rename (s : Session) (memento : Memento) (name : String) : Done × Session :=
  match s.connection.apply (·.rename memento name) with
  | .error e => (failed (.database e), s)
  | .ok (false, _) => (failed (.notFound memento), s)
  | .ok (true, connection) =>
    ({ printed := ["Renamed " ++ memento ++ " to " ++ name] }, s.advance connection)

/-- A configuration on one line, its parts divided by tabulators. -/
def configurationLine (c : Configuration) : String :=
  let flags := (if c.isPrivate then ["private"] else []) ++ (if c.isTransient then ["transient"] else [])
  "\t".intercalate [c.memento, c.name, ",".intercalate (c.modes.map Mode.name), ",".intercalate flags]

/-- Shows all configurations. -/
def configs (s : Session) : Done :=
  match s.connection.database.list with
  | .error e => failed (.database e)
  | .ok cs => { printed := cs.map configurationLine }

/-! ## The history -/

/-- What is left to do on the history. -/
inductive Work
  | record (launch : Launch)
  | forget (memento : Memento)
  | lists (modes : List Mode)
  | last
  deriving DecidableEq, Repr

/-- The requests that some work consists of. -/
def Work.requests : Work → List Request
  | record launch => [.record launch]
  | forget memento => [.configurationRemoved memento]
  | lists modes => modes.map .history
  | last => [.latest]

/-- The entries of a list on lines of their own, counted from one. -/
def entryLines (l : Recent) : List String :=
  l.zipIdx.map fun (e, i) =>
    "  " ++ toString (i + 1) ++ ". " ++ e.label ++ " (" ++ e.memento ++ ")"

/-- What is printed about the answer to a request. -/
def report : Request → Answer → List String
  | .record launch, .recorded remembered =>
    [(if remembered then "Recorded " else "Ignored ") ++ launch.mode.name ++ " launch of " ++
      launch.memento]
  | .configurationRemoved memento, _ => ["Removed " ++ memento]
  | .history mode, .launches l => (mode.name ++ ":") :: entryLines l
  | .latest, .latest (some e) => [e.label ++ " (" ++ e.memento ++ ", " ++ e.mode.name ++ ")"]
  | .latest, .latest none => ["No launches yet"]
  | _, _ => []

/-- Sends requests one after the other until one fails. -/
def ask (service : Service Connection) : List Request → Done × Service Connection
  | [] => ({}, service)
  | r :: rest =>
    match service.call Connection.store r with
    | (.error e, service) => (failed e, service)
    | (.ok a, service) =>
      let (done, service) := ask service rest
      ({ done with printed := report r a ++ done.printed }, service)

/-- Does some work on the history. The history is saved also after work that failed, and after the
changes of the database; the failure of the work counts before that of the saving. -/
def work (s : Session) (w : Work) : Done × Session :=
  let service := Service.restore Connection.store s.connection s.file s.disk
  let (done, service) := ask service w.requests
  let worker := service.worker
  let service := { service with worker := { worker with disk := worker.store.flush worker.disk } }
  let (saved, service) := service.call Connection.store .shutdown
  let result :=
    match done.result with
    | .ok () => saved.map fun _ => ()
    | .error e => .error e
  ({ done with result := result },
    { s with connection := service.worker.store, disk := service.worker.disk })

/-- The launch to record: its label is the given one, or the name of the configuration, or else the
memento. -/
def launchOf (s : Session) (memento : Memento) (mode : Mode) (label : Option String) :
    Except Fault Launch := do
  match label with
  | some l => return ⟨memento, mode, l⟩
  | none =>
    let c ← (s.connection.database.get memento).mapError .database
    return ⟨memento, mode, (c.map (·.name)).getD memento⟩

/-! ## Commands -/

/-- Carries out a command. -/
def perform (now : Timestamp) (s : Session) : Command → Done × Session
  | .add memento name modes isPrivate isTransient =>
    s.add ⟨memento, name, modes, isPrivate, isTransient, now⟩
  | .rename memento name => s.rename memento name
  | .configs => (s.configs, s)
  | .remove memento =>
    match s.connection.apply (·.delete memento) with
    | .error e => (failed (.database e), s)
    | .ok (false, _) => (failed (.notFound memento), s)
    | .ok (true, connection) => (s.advance connection).work (.forget memento)
  | .record memento mode label =>
    match s.launchOf memento mode label with
    | .error e => (failed e, s)
    | .ok launch => s.work (.record launch)
  | .list (some mode) => s.work (.lists [mode])
  | .list none => s.work (.lists [.run, .debug])
  | .last => s.work .last

end Session

end RecentLaunches
