/-
A history served to any number of clients. Requests wait in one mailbox, in the order they were
sent, and one worker takes them out one by one. Once the worker has ended, nothing more is taken in
and what still waits is thrown away: its clients are told that the service has stopped.
-/
import RecentLaunches.Request

namespace RecentLaunches

/-- What a client holds while a request is under way. -/
abbrev Ticket := Nat

/-- A worker with its mailbox, and what it has answered so far. -/
structure Service (σ : Type) where
  worker : Worker σ
  isOpen : Bool := true
  mailbox : List (Ticket × Request) := []
  issued : Ticket := 0
  answers : List (Ticket × Except Fault Answer) := []

namespace Service

variable {σ : Type}

/-- A service that nobody has asked anything. -/
def ofWorker (w : Worker σ) : Service σ :=
  { worker := w }

/-- A service that begins with a given history. -/
def start (history : History) (store : σ) (file : HistoryFile) (disk : Disk) : Service σ :=
  ofWorker ⟨history, store, file, disk⟩

/-- A service that begins with the history that is kept. -/
def restore (S : Store σ) (store : σ) (file : HistoryFile) (disk : Disk) : Service σ :=
  ofWorker (.restore S store file disk)

/-! ## Clients -/

/-- Puts a request into the mailbox, as long as there is one. -/
def send (s : Service σ) (r : Request) : Except Fault (Ticket × Service σ) :=
  if s.isOpen then
    .ok (s.issued, { s with mailbox := s.mailbox ++ [(s.issued, r)], issued := s.issued + 1 })
  else .error .stopped

/-- What the holder of a ticket is told, once it can be told: the worker's answer, or that there will
be none. -/
def reply? (s : Service σ) (t : Ticket) : Option (Except Fault Answer) :=
  match s.answers.lookup t with
  | some a => some a
  | none => if s.isOpen then none else some (.error .stopped)

/-! ## The worker's side -/

/-- The worker takes the oldest request out of the mailbox. When it ends, the mailbox is closed and
thrown away. -/
def work (S : Store σ) (s : Service σ) : Service σ :=
  match s.mailbox with
  | [] => s
  | (t, r) :: rest =>
    let step := s.worker.perform S r
    let answers :=
      match step.answer with
      | some a => (t, a) :: s.answers
      | none => s.answers
    { s with
      worker := step.worker
      isOpen := step.goesOn
      mailbox := if step.goesOn then rest else []
      answers := answers }

/-- The worker takes requests out of the mailbox a number of times. -/
def workTimes (S : Store σ) : Nat → Service σ → Service σ
  | 0, s => s
  | n + 1, s => workTimes S n (s.work S)

/-- The worker empties the mailbox. -/
def settle (S : Store σ) (s : Service σ) : Service σ :=
  s.workTimes S s.mailbox.length

/-- The end of the last client: the worker empties the mailbox, saves the history whether that
succeeds or not, and ends. -/
def hangUp (S : Store σ) (s : Service σ) : Service σ :=
  let s := s.settle S
  if s.isOpen then { s with worker := s.worker.save.2, isOpen := false } else s

/-- A client alone with the service: sends a request and waits until it can be told something. -/
def call (S : Store σ) (s : Service σ) (r : Request) : Except Fault Answer × Service σ :=
  match s.send r with
  | .error e => (.error e, s)
  | .ok (t, s) =>
    let s := s.settle S
    if r.awaitsWorker then ((s.reply? t).getD (.error .stopped), s) else (.ok .accepted, s)

end Service

end RecentLaunches
