/-
Restarts of a service cannot be told by its clients. A course is what goes on around one history file
and one store: requests are sent, the worker gets on with them at its own pace, and now and then the
service is stopped and begins again with what it saved. However often that happens, all requests are
answered as if they had been put to one book, one after the other, and the same book is left.
-/
import RecentLaunches.Proofs.History.Keeping
import RecentLaunches.Proofs.Service.Settling

namespace RecentLaunches

/-! ## Courses -/

/-- How a service is stopped: by a request, or as its last client is gone. -/
inductive Stop
  | shutdown
  | hangUp

/-- What a client has in hand once it has sent a request: the reply, or a ticket for it. -/
inductive Reply
  | now (reply : Except Fault Answer)
  | later (ticket : Ticket)

/-- The reply that a client reads from a service that has nothing left to do. -/
def Reply.read {σ : Type} (s : Service σ) : Reply → Except Fault Answer
  | now reply => reply
  | later t => (s.reply? t).getD (.error .stopped)

/-- What goes on around a service. A stop is followed by a new service on the same file and store. -/
inductive Turn
  | ask (r : Request) (isNoStop : r ≠ .shutdown)
  | work
  | stop (how : Stop)

/-- The request that is sent in a turn. -/
def Turn.asked? : Turn → Option Request
  | ask r _ => some r
  | _ => none

/-- A service, what its clients have in hand, and what the clients of the services before it were
told. -/
structure Course (σ : Type) where
  service : Service σ
  held : List Reply := []
  told : List (Except Fault Answer) := []

/-- All that can be seen of a course: every reply in the order of the requests, and the history and the
store that are left. -/
structure Course.Outcome (σ : Type) where
  replies : List (Except Fault Answer)
  history : History
  store : σ

namespace Course

variable {σ : Type}

/-- What a client is handed for a request that was taken in. -/
def handed (r : Request) (t : Ticket) : Reply :=
  if r.awaitsWorker then .later t else .now (.ok .accepted)

/-- A request is sent. -/
def ask (c : Course σ) (r : Request) : Course σ :=
  match c.service.send r with
  | .error e => { c with held := c.held ++ [.now (.error e)] }
  | .ok (t, s) => { c with service := s, held := c.held ++ [handed r t] }

/-- A service has ended, and another one begins. -/
def restart (S : Store σ) (c : Course σ) (ended : Service σ) : Course σ where
  service := Service.restore S ended.worker.store ended.worker.file ended.worker.disk
  told := c.told ++ c.held.map (Reply.read ended)

/-- What a turn leads to. -/
def turn (S : Store σ) (c : Course σ) : Turn → Course σ
  | .ask r _ => c.ask r
  | .work => { c with service := c.service.work S }
  | .stop .shutdown => c.restart S (c.service.call S .shutdown).2
  | .stop .hangUp => c.restart S (c.service.hangUp S)

/-- What some turns lead to, one after the other. -/
def run (S : Store σ) (c : Course σ) (turns : List Turn) : Course σ :=
  turns.foldl (turn S) c

/-- What is seen of a course once the worker has nothing left to do. -/
def outcome (S : Store σ) (c : Course σ) : Outcome σ :=
  let s := c.service.settle S
  ⟨c.told ++ c.held.map (Reply.read s), s.worker.history, s.worker.store⟩

end Course

/-! ## Reading replies -/

section

variable {σ : Type} {s s' : Service σ}

theorem Reply.read_later (s : Service σ) (t : Ticket) :
    (later t).read s = (s.answers.lookup t).getD (.error .stopped) := by
  show (s.reply? t).getD _ = _
  unfold Service.reply?
  rcases s.answers.lookup t with _ | a
  · simp only
    split_ifs <;> rfl
  · rfl

/-- Replies do not change as later tickets are answered. -/
theorem Reply.read_of_newer {held : List Reply} {issued : Ticket} {a : Except Fault Answer}
    (hb : ∀ t, .later t ∈ held → t < issued)
    (ha : s'.answers = s.answers ∨ s'.answers = (issued, a) :: s.answers) :
    held.map (read s') = held.map (read s) := by
  refine List.map_congr_left fun reply hr => ?_
  cases reply with
  | now a => rfl
  | later t =>
    rw [read_later, read_later]
    rcases ha with ha | ha <;> rw [ha]
    have hne : (t == issued) = false := beq_eq_false_iff_ne.2 (Nat.ne_of_lt (hb t hr))
    rw [List.lookup_cons, hne]

end

/-! ## What every turn keeps -/

section

variable {σ : Type} {S : Store σ} {b : Book σ} {rs : List Request} {c : Course σ}

/-- A course keeps to a book that is asked the same requests one after the other: this is so once the
worker has nothing left to do, and it gets there without ending. -/
structure Course.Follows (S : Store σ) (b : Book σ) (rs : List Request) (c : Course σ) : Prop where
  isOpen : c.service.isOpen = true
  goesOn : (c.service.settle S).isOpen = true
  writable : (c.service.settle S).worker.disk.IsWritable (c.service.settle S).worker.file.path
  older : ∀ t, .later t ∈ c.held → t < c.service.issued
  replies : c.told ++ c.held.map (Reply.read (c.service.settle S)) = (b.serveAll S rs).1
  book : (c.service.settle S).worker.book = (b.serveAll S rs).2

theorem Course.ask_of_isOpen (h : c.service.isOpen = true) (r : Request) :
    c.ask r =
      { c with service := c.service.push r, held := c.held ++ [handed r c.service.issued] } := by
  unfold ask
  rw [Service.send_of_isOpen h]

namespace Course.Follows

theorem start {w : Worker σ} (hd : w.disk.IsWritable w.file.path) :
    Follows S w.book [] { service := .ofWorker w } where
  isOpen := rfl
  goesOn := rfl
  writable := hd
  older := fun _ h => nomatch h
  replies := rfl
  book := rfl

theorem work (hf : Follows S b rs c) : Follows S b rs { c with service := c.service.work S } := by
  have hs := Service.settle_work (S := S) c.service
  refine ⟨?_, ?_, ?_, ?_, ?_, ?_⟩
  · rcases hm : c.service.mailbox with _ | ⟨x, rest⟩
    · show (c.service.work S).isOpen = true
      rw [Service.work_of_nil hm]
      exact hf.isOpen
    · exact Service.isOpen_work_of_settle hf.goesOn (by rw [hm]; exact List.cons_ne_nil _ _)
  · show ((c.service.work S).settle S).isOpen = true
    rw [hs]
    exact hf.goesOn
  · show ((c.service.work S).settle S).worker.disk.IsWritable ((c.service.work S).settle S).worker.file.path
    rw [hs]
    exact hf.writable
  · intro t ht
    have hi : (c.service.work S).issued = c.service.issued := by
      rw [← Service.issued_settle (S := S), hs, Service.issued_settle]
    show t < (c.service.work S).issued
    rw [hi]
    exact hf.older t ht
  · show _ ++ c.held.map (Reply.read ((c.service.work S).settle S)) = _
    rw [hs]
    exact hf.replies
  · show ((c.service.work S).settle S).worker.book = _
    rw [hs]
    exact hf.book

/-- Once the worker is done, a request has been served after all others, by the book they left. -/
theorem settle_push (hS : S.Keyed) (hk : b.IsKept S) (hf : Follows S b rs c) {r : Request}
    (hr : r ≠ .shutdown) :
    (c.service.push r).settle S =
      { worker := (c.service.settle S).worker.withBook ((b.serveAll S rs).2.serve S r).2
        isOpen := true
        mailbox := []
        issued := c.service.issued + 1
        answers :=
          if r.awaitsWorker then
            (c.service.issued, ((b.serveAll S rs).2.serve S r).1) :: (c.service.settle S).answers
          else (c.service.settle S).answers } := by
  have hw : (c.service.settle S).worker.history.WF := by
    have := (hk.serveAll hS rs).wf
    rw [← hf.book] at this
    exact this
  rw [Service.settle_push hf.goesOn r, Service.work_push_of_nil hS (Service.mailbox_settle _) hw hr,
    Service.issued_settle, hf.book]

/-- The client that sent a request reads what the book answers; all others read what they did. -/
theorem read_push (hS : S.Keyed) (hk : b.IsKept S) (hf : Follows S b rs c) {r : Request}
    (hr : r ≠ .shutdown) :
    c.held.map (Reply.read ((c.service.push r).settle S)) = c.held.map (Reply.read (c.service.settle S)) ∧
      (handed r c.service.issued).read ((c.service.push r).settle S) =
        ((b.serveAll S rs).2.serve S r).1 := by
  rw [hf.settle_push hS hk hr]
  constructor
  · refine Reply.read_of_newer hf.older (a := ((b.serveAll S rs).2.serve S r).1) ?_
    simp only
    split_ifs
    · exact .inr rfl
    · exact .inl rfl
  · unfold handed
    by_cases ha : r.awaitsWorker = true
    · rw [if_pos ha, if_pos ha, Reply.read_later, List.lookup_cons, beq_self_eq_true]
      rfl
    · rw [if_neg ha, if_neg ha]
      cases r <;> first | rfl | exact absurd rfl ha

theorem ask (hS : S.Keyed) (hk : b.IsKept S) (hf : Follows S b rs c) {r : Request} (hr : r ≠ .shutdown) :
    Follows S b (rs ++ [r]) (c.ask r) := by
  have hs := hf.settle_push hS hk hr
  obtain ⟨hold, hnew⟩ := hf.read_push hS hk hr
  rw [ask_of_isOpen hf.isOpen]
  refine ⟨hf.isOpen, ?_, ?_, ?_, ?_, ?_⟩
  · show ((c.service.push r).settle S).isOpen = true
    rw [hs]
  · show ((c.service.push r).settle S).worker.disk.IsWritable ((c.service.push r).settle S).worker.file.path
    rw [hs]
    exact hf.writable
  · intro t ht
    show t < c.service.issued + 1
    rcases List.mem_append.1 ht with ht | ht
    · exact Nat.lt_succ_of_lt (hf.older t ht)
    · unfold handed at ht
      split_ifs at ht <;> cases List.mem_singleton.1 ht
      exact Nat.lt_succ_self _
  · show c.told ++ (c.held ++ [_]).map (Reply.read ((c.service.push r).settle S)) = _
    rw [List.map_append, List.map_singleton, hold, hnew, ← List.append_assoc, hf.replies,
      Book.serveAll_append]
  · show ((c.service.push r).settle S).worker.book = _
    rw [hs, Book.serveAll_append]
    rfl

/-- A service has saved its history and ended, and another one begins with it: the same history, as it
was read again and no launch of it is gone. -/
theorem restart (hS : S.Keyed) (hk : b.IsKept S) (hn : b.IsNamed S) (hf : Follows S b rs c)
    {ended : Service σ} (hw : ended.worker = (c.service.settle S).worker.save.2)
    (ha : c.held.map (Reply.read ended) = c.held.map (Reply.read (c.service.settle S))) :
    Follows S b rs (c.restart S ended) := by
  have hkept := hk.serveAll hS rs
  have hnamed := hn.serveAll hS rs
  rw [← hf.book] at hkept hnamed
  obtain ⟨disk, hsave, hagain⟩ :=
    HistoryFile.save_of_isWritable hf.writable (c.service.settle S).worker.history
  have hsaved : (c.service.settle S).worker.save.2 = { (c.service.settle S).worker with disk := disk } := by
    unfold Worker.save
    rw [hsave]
  have hback : ((c.service.settle S).worker.file.loadOrEmpty disk).prune S (c.service.settle S).worker.store =
      (c.service.settle S).worker.history := by
    rw [HistoryFile.loadOrEmpty_of_isNamed hsave hkept.wf hnamed.history]
    exact hkept.backed.prune_eq
  have hbegin : Worker.restore S ended.worker.store ended.worker.file ended.worker.disk =
      { (c.service.settle S).worker with disk := disk } := by
    rw [hw, hsaved]
    unfold Worker.restore
    rw [hback]
  refine ⟨rfl, rfl, ?_, (fun _ h => nomatch h), ?_, ?_⟩
  · show (Worker.restore S _ _ _).disk.IsWritable (Worker.restore S _ _ _).file.path
    rw [hbegin]
    exact hagain
  · show (c.told ++ c.held.map (Reply.read ended)) ++ [] = _
    rw [List.append_nil, ha]
    exact hf.replies
  · show (Worker.restore S _ _ _).book = _
    rw [hbegin]
    exact hf.book

theorem stop (hS : S.Keyed) (hk : b.IsKept S) (hn : b.IsNamed S) (hf : Follows S b rs c) (how : Stop) :
    Follows S b rs (c.turn S (.stop how)) := by
  cases how with
  | shutdown =>
    have hcall : (c.service.call S .shutdown).2 = (c.service.push .shutdown).settle S := by
      unfold Service.call
      rw [Service.send_of_isOpen hf.isOpen]
      rfl
    have hs := Service.settle_push hf.goesOn .shutdown
    rw [Service.work_push_shutdown (Service.mailbox_settle _), Service.issued_settle] at hs
    rw [← hcall] at hs
    refine hf.restart hS hk hn ?_ ?_
    · rw [hs]
    · exact Reply.read_of_newer hf.older (.inr (congrArg Service.answers hs))
  | hangUp =>
    have hend : c.service.hangUp S =
        { c.service.settle S with worker := (c.service.settle S).worker.save.2, isOpen := false } := by
      unfold Service.hangUp
      simp only
      rw [if_pos hf.goesOn]
    refine hf.restart hS hk hn ?_ ?_
    · rw [hend]
    · refine Reply.read_of_newer hf.older (a := .ok .saved) (.inl ?_)
      rw [hend]

/-- A turn asks the book what it asks the service, if anything. -/
theorem turn (hS : S.Keyed) (hk : b.IsKept S) (hn : b.IsNamed S) (hf : Follows S b rs c) (x : Turn) :
    Follows S b (rs ++ x.asked?.toList) (c.turn S x) := by
  cases x with
  | ask r hr => exact hf.ask hS hk hr
  | work =>
    show Follows S b (rs ++ []) _
    rw [List.append_nil]
    exact hf.work
  | stop how =>
    show Follows S b (rs ++ []) _
    rw [List.append_nil]
    exact hf.stop hS hk hn how

theorem run (hS : S.Keyed) (hk : b.IsKept S) (hn : b.IsNamed S) (hf : Follows S b rs c)
    (turns : List Turn) : Follows S b (rs ++ turns.filterMap Turn.asked?) (c.run S turns) := by
  induction turns generalizing c rs with
  | nil =>
    rw [List.filterMap_nil, List.append_nil]
    exact hf
  | cons x turns ih =>
    have h := ih (hf.turn hS hk hn x)
    rw [List.append_assoc] at h
    have hx : x.asked?.toList ++ turns.filterMap Turn.asked? = (x :: turns).filterMap Turn.asked? := by
      rw [List.filterMap_cons]
      rcases x.asked? with _ | r <;> rfl
    rw [hx] at h
    exact h

/-- All that is seen of a course is seen of the book. -/
theorem outcome_eq (hf : Follows S b rs c) :
    c.outcome S = ⟨(b.serveAll S rs).1, (b.serveAll S rs).2.history, (b.serveAll S rs).2.store⟩ := by
  unfold Course.outcome
  rw [← hf.book, ← hf.replies]
  rfl

end Course.Follows

end

/-! ## Restarts -/

/-- The ways in which a service over a database begins: with whatever its file holds, or with nothing
remembered. -/
def Begun (d : Database) (file : HistoryFile) (disk : Disk) (s : Service Database) : Prop :=
  s = .restore Database.store d file disk ∨ s = .start .empty d file disk

/-- What a service begins with is kept and has mementos. -/
theorem Begun.follows {d : Database} {file : HistoryFile} {disk : Disk} {s : Service Database}
    (hs : Begun d file disk s) (hd : ∀ c, d.get "" ≠ .ok (some c)) (hw : disk.IsWritable file.path) :
    ∃ b : Book Database, b.IsKept Database.store ∧ b.IsNamed Database.store ∧
      Course.Follows Database.store b [] { service := s } := by
  have hnamed := Database.isNamed_iff.2 hd
  rcases hs with rfl | rfl
  · have hsound := file.sound_loadOrEmpty disk
    refine ⟨⟨d, (file.loadOrEmpty disk).prune Database.store d⟩, ?_, ?_,
      .start (w := .restore Database.store d file disk) hw⟩
    · exact ⟨hsound.wf.drop _, History.isBacked_prune _ _ _⟩
    · exact ⟨(hsound.drop _).named, hnamed⟩
  · exact ⟨⟨d, .empty⟩, .empty d, ⟨(fun _ he => nomatch he), hnamed⟩,
      .start (w := ⟨.empty, d, file, disk⟩) hw⟩

/-- Restarts are invisible. Over a database in which nothing has the empty memento, and on a path where a
file can be saved, two courses with the same requests have the same outcome. So wherever one of them is
stopped, as often as it may be and in whatever way, and however far its worker was then, every reply, the
last history and the last database are those of a service that is never stopped. -/
theorem outcome_of_same_requests {d : Database} {file : HistoryFile} {disk : Disk} {s : Service Database}
    (hd : ∀ c, d.get "" ≠ .ok (some c)) (hw : disk.IsWritable file.path) (hs : Begun d file disk s)
    (turns others : List Turn) (ha : turns.filterMap Turn.asked? = others.filterMap Turn.asked?) :
    (Course.run Database.store { service := s } turns).outcome Database.store =
      (Course.run Database.store { service := s } others).outcome Database.store := by
  obtain ⟨b, hk, hn, hf⟩ := hs.follows hd hw
  rw [(hf.run Database.keyed_store hk hn turns).outcome_eq,
    (hf.run Database.keyed_store hk hn others).outcome_eq, ha]

/-- A database with one configuration. -/
def single : Database :=
  ((Book.mk .fresh .empty).run [.save (Book.passing "a")]).store

/-- A launch and a question about it. -/
def unstopped : List Turn :=
  [.ask (.record ⟨"a", .run, "A"⟩) (by decide), .ask .latest (by decide)]

/-- The same, with both kinds of stop between them. -/
def stopped : List Turn :=
  [.ask (.record ⟨"a", .run, "A"⟩) (by decide), .stop .hangUp, .stop .shutdown, .ask .latest (by decide)]

/-- The launch outlives the stops. -/
theorem outcome_of_stopped :
    ((Course.run Database.store { service := .start .empty single .fresh { here := [] } }
      stopped).outcome Database.store).replies =
      [.ok (.recorded true), .ok (.latest (some ⟨"a", .run, "A"⟩))] := by
  have hd : ∀ c, single.get "" ≠ .ok (some c) := by
    intro c
    have h : single.get "" = .ok none := by decide +kernel
    rw [h]
    simp
  have h := outcome_of_same_requests hd HistoryFile.isWritable_fresh (.inr rfl) stopped unstopped rfl
  rw [h]
  decide +kernel

end RecentLaunches
