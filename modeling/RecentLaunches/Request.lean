/-
What clients ask about one history, and what they are told. A worker owns the history with the store
it consults and the file it is kept in, and answers one request at a time.
-/
import RecentLaunches.HistoryFile

namespace RecentLaunches

/-! ## Requests -/

/-- What is asked of the owner of a history. -/
inductive Request
  | record (launch : Launch)
  | removeEntry (entry : Launch)
  | configurationRemoved (memento : Memento)
  | history (mode : Mode)
  | latest
  | shutdown
  deriving DecidableEq, Repr

/-- What a client is told when nothing is wrong. -/
inductive Answer
  | recorded (remembered : Bool)
  | accepted
  | launches (launches : Recent)
  | latest (launch : Option Launch)
  | saved
  deriving DecidableEq, Repr

/-- Whether a client waits for the worker. The two removals are answered as soon as they are
queued. -/
def Request.awaitsWorker : Request → Bool
  | removeEntry _ | configurationRemoved _ => false
  | _ => true

/-! ## The worker -/

/-- The owner of a history. -/
structure Worker (σ : Type) where
  history : History
  store : σ
  file : HistoryFile
  disk : Disk

/-- What a request leads to: the worker after it, what it tells the client, and whether it goes on. -/
structure Step (σ : Type) where
  worker : Worker σ
  answer : Option (Except Fault Answer)
  goesOn : Bool

namespace Worker

variable {σ : Type}

/-- A worker that begins with the history that is kept, less the launches whose configuration is
gone. -/
def restore (S : Store σ) (store : σ) (file : HistoryFile) (disk : Disk) : Worker σ :=
  ⟨(file.loadOrEmpty disk).prune S store, store, file, disk⟩

/-- Keeps the history. -/
def save (w : Worker σ) : Except Fault Unit × Worker σ :=
  let (r, disk) := w.file.save w.disk w.history
  (r, { w with disk := disk })

/-- Carries out a request. A breach of the rules of the lists ends the worker with nothing said and
nothing saved. -/
def perform (S : Store σ) (w : Worker σ) : Request → Step σ
  | .record launch =>
    let r := History.record S w.store w.history launch
    let w := { w with history := r.history, store := r.store }
    match r.verdict with
    | .ok remembered => ⟨w, some (.ok (.recorded remembered)), true⟩
    | .error _ => ⟨w, none, false⟩
  | .removeEntry entry => ⟨{ w with history := w.history.removeEntry entry }, none, true⟩
  | .configurationRemoved memento =>
    ⟨{ w with history := w.history.removeConfiguration memento }, none, true⟩
  | .history mode => ⟨w, some (.ok (.launches (w.history.list mode))), true⟩
  | .latest => ⟨w, some (.ok (.latest w.history.latest)), true⟩
  | .shutdown =>
    let (r, w) := w.save
    ⟨w, some (r.map fun _ => .saved), false⟩

end Worker

end RecentLaunches
