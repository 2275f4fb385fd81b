/-
A service among many clients. A client sends a request, or the worker takes one out of the mailbox, in any
order. However the sendings of the clients and the steps of the worker fall, the requests are served in
the order in which they were sent, as by a book that is asked one request after the other; the service
ends by a request to shut down and by nothing else; and what is sent too late changes nothing.
-/
import RecentLaunches.Proofs.Service.Restart

namespace RecentLaunches

/-! ## Moves -/

/-- What goes on at a service. Clients are not told apart, since nothing depends on who sends a request:
what any number of them do is a list of sendings. What is sent after the last request was taken and before
the mailbox is closed counts as sent before it was taken: both wait for nothing. -/
inductive Move
  | send (r : Request)
  | take
  deriving DecidableEq, Repr

/-- The request that is sent in a move. -/
def Move.sent? : Move → Option Request
  | send r => some r
  | take => none

/-- The requests that are sent in some moves, in order. -/
def sent (moves : List Move) : List Request :=
  moves.filterMap Move.sent?

/-- What a client has been told so far. -/
def Reply.seen? {σ : Type} (s : Service σ) : Reply → Option (Except Fault Answer)
  | now reply => some reply
  | later t => s.reply? t

/-- What a client has been told about a request that the worker has not served. A removal was answered as
it was sent. Any other request waits, and is told to have come to nothing once the service has ended. -/
def Request.unserved (isOpen : Bool) (r : Request) : Option (Except Fault Answer) :=
  if r.awaitsWorker then if isOpen then none else some (.error .stopped) else some (.ok .accepted)

namespace Course

variable {σ : Type} {S : Store σ} {c : Course σ}

/-- What a move leads to. -/
def move (S : Store σ) (c : Course σ) : Move → Course σ
  | .send r => c.ask r
  | .take => { c with service := c.service.work S }

/-- What some moves lead to, one after the other. -/
def moveAll (S : Store σ) (c : Course σ) (moves : List Move) : Course σ :=
  moves.foldl (move S) c

/-- The request that the worker takes out of the mailbox in a move. -/
def takes? (c : Course σ) : Move → Option Request
  | .send _ => none
  | .take => c.service.mailbox.head?.map (·.2)

/-- The requests that the worker takes out of the mailbox in some moves, in order. -/
def taken (S : Store σ) (c : Course σ) : List Move → List Request
  | [] => []
  | x :: moves => (c.takes? x).toList ++ taken S (c.move S x) moves

/-- The last client is gone. -/
def hangUp (S : Store σ) (c : Course σ) : Course σ :=
  { c with service := c.service.hangUp S }

/-- All that the clients of a service have been told so far, in the order of their requests. -/
def seen (c : Course σ) : List (Option (Except Fault Answer)) :=
  c.held.map (Reply.seen? c.service)

end Course

/-! ## What clients are told -/

section

variable {σ : Type} {S : Store σ} {s : Service σ} {b : Book σ} {requests : List Request}
  {replies : List (Except Fault Answer)} {t : Ticket} {r : Request} {a : Except Fault Answer}

theorem Book.length_serveAll (b : Book σ) (rs : List Request) : (b.serveAll S rs).1.length = rs.length := by
  induction rs generalizing b with
  | nil => rfl
  | cons r rs ih =>
    unfold serveAll
    rw [List.length_cons, List.length_cons, ih]

theorem Book.serve_of_not_awaitsWorker (hr : r.awaitsWorker = false) : (b.serve S r).1 = .ok .accepted := by
  cases r <;> first | rfl | cases hr

/-- The answers of a service to the first of some requests, whose tickets count from zero. -/
structure Service.Answered (requests : List Request) (replies : List (Except Fault Answer))
    (s : Service σ) : Prop where
  /-- What is kept for a ticket. -/
  lookup : ∀ t, s.answers.lookup t =
    requests[t]?.bind fun r => if r.awaitsWorker then replies[t]? else none
  /-- What was answered as it was sent is served with the same answer. -/
  accepted : ∀ {t r}, requests[t]? = some r → r.awaitsWorker = false → t < replies.length →
    replies[t]? = some (.ok .accepted)
  length_le : replies.length ≤ requests.length

namespace Service.Answered

theorem send (h : Answered requests replies s) (r : Request) : Answered (requests ++ [r]) replies s where
  lookup := by
    intro t
    rw [h.lookup]
    rcases Nat.lt_trichotomy t requests.length with ht | ht | ht
    · rw [List.getElem?_append_left ht]
    · -- the new ticket has no answer yet
      have hnone : replies[t]? = none := List.getElem?_eq_none (by have := h.length_le; omega)
      simp [ht ▸ hnone, ht]
    · have hold : requests[t]? = none := List.getElem?_eq_none (Nat.le_of_lt ht)
      have hnew : (requests ++ [r])[t]? = none := List.getElem?_eq_none (by simpa using ht)
      rw [hold, hnew]
  accepted := by
    intro t q hq hr ht
    have hlt : t < requests.length := Nat.lt_of_lt_of_le ht h.length_le
    rw [List.getElem?_append_left hlt] at hq
    exact h.accepted hq hr ht
  length_le := by
    rw [List.length_append]
    exact Nat.le_add_right_of_le h.length_le

/-- The next request is served. -/
theorem serve (h : Answered requests replies s) (hr : requests[replies.length]? = some r)
    (ha : r.awaitsWorker = false → a = .ok .accepted) {s' : Service σ}
    (hs : s'.answers = if r.awaitsWorker then (replies.length, a) :: s.answers else s.answers) :
    Answered requests (replies ++ [a]) s' where
  lookup := by
    intro t
    rw [hs]
    by_cases ht : t = replies.length
    · subst ht
      rw [hr, Option.bind_some, List.getElem?_concat_length]
      split_ifs
      · rw [List.lookup_cons, beq_self_eq_true]
      · rw [h.lookup, hr, Option.bind_some, if_neg ‹_›]
    · have hold : (if r.awaitsWorker then (replies.length, a) :: s.answers else s.answers).lookup t =
          s.answers.lookup t := by
        split_ifs
        · rw [List.lookup_cons, beq_eq_false_iff_ne.2 ht]
        · rfl
      have hnew : (replies ++ [a])[t]? = replies[t]? := by
        rw [List.getElem?_append]
        split_ifs with hlt
        · rfl
        · have hgt : replies.length < t := Nat.lt_of_le_of_ne (Nat.le_of_not_lt hlt) (Ne.symm ht)
          rw [List.getElem?_eq_none (Nat.le_of_lt hgt),
            List.getElem?_eq_none (by rw [List.length_singleton]; omega)]
      rw [hold, h.lookup, hnew]
  accepted := by
    intro t q hq hq' ht
    rw [List.length_append, List.length_singleton] at ht
    by_cases he : t = replies.length
    · subst he
      rw [hr] at hq
      cases hq
      rw [List.getElem?_concat_length, ha hq']
    · rw [List.getElem?_append_left (by omega)]
      exact h.accepted hq hq' (by omega)
  length_le := by
    have hlt : replies.length < requests.length := (List.getElem?_eq_some_iff.1 hr).1
    rw [List.length_append, List.length_singleton]
    exact hlt

theorem seen?_handed (h : Answered requests replies s) (hr : requests[t]? = some r) :
    (Course.handed r t).seen? s =
      if t < replies.length then replies[t]? else r.unserved s.isOpen := by
  unfold Course.handed Request.unserved
  rcases ha : r.awaitsWorker with _ | _
  · show some (Except.ok Answer.accepted) = _
    by_cases ht : t < replies.length
    · rw [if_pos ht, h.accepted hr ha ht]
    · rw [if_neg ht]
      rfl
  · show s.reply? t = _
    unfold Service.reply?
    rw [h.lookup, hr, Option.bind_some, if_pos ha]
    by_cases ht : t < replies.length
    · rw [if_pos ht, List.getElem?_eq_getElem ht]
    · rw [if_neg ht, List.getElem?_eq_none (Nat.le_of_not_lt ht)]
      rfl

/-- The clients have been told the answers to the requests that are served, and of the others what is told
about unserved ones. -/
theorem map_seen? (h : Answered requests replies s) :
    (requests.zipIdx.map fun (r, t) => Course.handed r t).map (Reply.seen? s) =
      replies.map some ++ (requests.drop replies.length).map (Request.unserved s.isOpen) := by
  refine List.ext_getElem? fun t => ?_
  rw [List.map_map, List.getElem?_map, List.getElem?_zipIdx, Option.map_map, List.getElem?_append,
    List.length_map]
  rcases hr : requests[t]? with _ | r
  · have ht : requests.length ≤ t := List.getElem?_eq_none_iff.1 hr
    have hle := h.length_le
    rw [if_neg (by omega), List.getElem?_map, List.getElem?_drop, List.getElem?_eq_none (by omega)]
    rfl
  · show some ((Course.handed r (0 + t)).seen? s) = _
    rw [Nat.zero_add, h.seen?_handed hr]
    split_ifs with ht
    · rw [List.getElem?_map, List.getElem?_eq_getElem ht]
      rfl
    · rw [List.getElem?_map, List.getElem?_drop, Nat.add_sub_cancel' (Nat.le_of_not_lt ht), hr]
      rfl

end Service.Answered

end

/-! ## Open services -/

namespace Course

section

variable {σ : Type} {S : Store σ} {w : Worker σ} {c : Course σ}
  {served waiting before behind refused : List Request} {r : Request}

/-- The worker has served some requests by its book, and others wait. -/
structure Serving (S : Store σ) (w : Worker σ) (served waiting : List Request) (c : Course σ) : Prop where
  isOpen : c.service.isOpen = true
  worker : c.service.worker = w.withBook (w.book.serveAll S served).2
  mailbox : c.service.mailbox = (waiting.zipIdx served.length).map Prod.swap
  issued : c.service.issued = (served ++ waiting).length
  held : c.held = (served ++ waiting).zipIdx.map fun (r, t) => handed r t
  answered : c.service.Answered (served ++ waiting) (w.book.serveAll S served).1

/-- The worker has saved its history and ended after some requests; others waited behind the one to shut
down, and yet others came too late. -/
structure Ended (S : Store σ) (w : Worker σ) (before behind refused : List Request) (c : Course σ) : Prop where
  isOpen : c.service.isOpen = false
  worker : c.service.worker = (w.withBook (w.book.serveAll S before).2).save.2
  mailbox : c.service.mailbox = []
  held : c.held = ((before ++ .shutdown :: behind).zipIdx.map fun (r, t) => handed r t) ++
    refused.map fun _ => .now (.error .stopped)
  answered : c.service.Answered (before ++ .shutdown :: behind) ((w.book.serveAll S before).1 ++
    [(w.withBook (w.book.serveAll S before).2).save.1.map fun _ => .saved])

theorem Serving.start (S : Store σ) (w : Worker σ) : Serving S w [] [] { service := .ofWorker w } where
  isOpen := rfl
  worker := rfl
  mailbox := rfl
  issued := rfl
  held := rfl
  answered :=
    { lookup := fun _ => rfl
      accepted := fun h => nomatch h
      length_le := Nat.le_refl _ }

namespace Serving

theorem send (h : c.Serving S w served waiting) (r : Request) :
    (c.move S (.send r)).Serving S w served (waiting ++ [r]) := by
  show (c.ask r).Serving S w served (waiting ++ [r])
  have hall : served ++ (waiting ++ [r]) = (served ++ waiting) ++ [r] := (List.append_assoc ..).symm
  rw [ask_of_isOpen h.isOpen]
  refine ⟨h.isOpen, h.worker, ?_, ?_, ?_, ?_⟩
  · show c.service.mailbox ++ [(c.service.issued, r)] = _
    rw [h.mailbox, h.issued, List.zipIdx_append, List.map_append, List.length_append]
    rfl
  · show c.service.issued + 1 = _
    rw [h.issued, hall]
    simp only [List.length_append, List.length_singleton]
  · show c.held ++ [handed r c.service.issued] = _
    have hheld : ((served ++ waiting) ++ [r]).zipIdx.map (fun (r, t) => handed r t) =
        (served ++ waiting).zipIdx.map (fun (r, t) => handed r t) ++
          [handed r (served ++ waiting).length] := by
      rw [List.zipIdx_append, List.map_append, Nat.zero_add]
      rfl
    rw [h.held, h.issued, hall, hheld]
  · have hanswered := h.answered.send r
    rw [hall]
    exact { hanswered with }

/-- Nothing to do for the worker. -/
theorem take_of_nil (h : c.Serving S w served []) : c.move S .take = c := by
  show { c with service := c.service.work S } = c
  rw [Service.work_of_nil h.mailbox]

theorem getElem?_length :
    (served ++ r :: waiting)[(w.book.serveAll S served).1.length]? = some r := by
  rw [Book.length_serveAll, List.getElem?_append_right (Nat.le_refl _), Nat.sub_self]
  rfl

/-- The oldest request that waits is served. -/
theorem take (hS : S.Keyed) (hk : w.book.IsKept S) (h : c.Serving S w served (r :: waiting))
    (hr : r ≠ .shutdown) : (c.move S .take).Serving S w (served ++ [r]) waiting := by
  have hw : c.service.worker.history.WF := by
    rw [h.worker]
    exact (hk.serveAll hS served).wf
  have hbook : c.service.worker.book = (w.book.serveAll S served).2 := by
    rw [h.worker]
    rfl
  have hwork := Service.work_of_cons hS h.mailbox hw hr
  have hserve := Book.serveAll_append (S := S) w.book served r
  have hall : (served ++ [r]) ++ waiting = served ++ r :: waiting := by
    rw [List.append_assoc, List.singleton_append]
  show Serving S w _ _ { c with service := c.service.work S }
  rw [hwork, hbook]
  refine ⟨rfl, ?_, ?_, ?_, ?_, ?_⟩
  · show c.service.worker.withBook _ = _
    rw [h.worker, hserve]
    rfl
  · rw [List.length_append]
    rfl
  · rw [hall]
    exact h.issued
  · rw [hall]
    exact h.held
  · rw [hall, hserve]
    refine h.answered.serve getElem?_length (fun ha => Book.serve_of_not_awaitsWorker ha) ?_
    rw [Book.length_serveAll]

/-- The request to shut down is served: the history is saved, and the service ends. -/
theorem take_shutdown (h : c.Serving S w served (.shutdown :: waiting)) :
    (c.move S .take).Ended S w served waiting [] := by
  show Ended S w served waiting [] { c with service := c.service.work S }
  rw [Service.work_of_shutdown h.mailbox, h.worker]
  refine ⟨rfl, rfl, rfl, ?_, ?_⟩
  · rw [List.map_nil, List.append_nil]
    exact h.held
  · refine h.answered.serve getElem?_length (fun ha => by cases ha) ?_
    rw [Book.length_serveAll]
    rfl

theorem takes?_take (h : c.Serving S w served waiting) : c.takes? .take = waiting.head? := by
  show c.service.mailbox.head?.map (·.2) = _
  rw [h.mailbox]
  cases waiting <;> rfl

end Serving

/-! ## Services that have ended -/

namespace Ended

theorem move (h : c.Ended S w before behind refused) (x : Move) :
    (c.move S x).Ended S w before behind (refused ++ x.sent?.toList) ∧ c.takes? x = none := by
  cases x with
  | send r =>
    have hask : c.move S (.send r) = { c with held := c.held ++ [.now (.error .stopped)] } := by
      show c.ask r = _
      have hclosed : c.service.send r = .error .stopped := by
        unfold Service.send
        rw [h.isOpen]
        rfl
      unfold ask
      rw [hclosed]
    rw [hask]
    refine ⟨⟨h.isOpen, h.worker, h.mailbox, ?_, h.answered⟩, rfl⟩
    show c.held ++ _ = _
    rw [h.held, List.append_assoc]
    simp [Move.sent?]
  | take =>
    have htake : c.move S .take = c := by
      show { c with service := c.service.work S } = c
      rw [Service.work_of_nil h.mailbox]
    rw [htake]
    refine ⟨?_, ?_⟩
    · show c.Ended S w before behind (refused ++ [])
      rw [List.append_nil]
      exact h
    · show c.service.mailbox.head?.map (·.2) = none
      rw [h.mailbox]
      rfl

theorem moveAll (h : c.Ended S w before behind refused) (moves : List Move) :
    (c.moveAll S moves).Ended S w before behind (refused ++ sent moves) ∧ c.taken S moves = [] := by
  induction moves generalizing c refused with
  | nil =>
    refine ⟨?_, rfl⟩
    show c.Ended S w before behind (refused ++ [])
    rw [List.append_nil]
    exact h
  | cons x moves ih =>
    obtain ⟨hx, htakes⟩ := h.move x
    obtain ⟨hrest, htaken⟩ := ih hx
    refine ⟨?_, ?_⟩
    · have hsent : (refused ++ x.sent?.toList) ++ sent moves = refused ++ sent (x :: moves) := by
        unfold sent
        rw [List.filterMap_cons, List.append_assoc]
        rcases x.sent? with _ | r <;> rfl
      rw [← hsent]
      exact hrest
    · unfold taken
      rw [htakes, htaken]
      rfl

/-- Replies after the end: what was served, the outcome of saving, and nothing for what came later. -/
theorem seen_eq (h : c.Ended S w before behind refused) :
    c.seen = (w.book.serveAll S before).1.map some ++
      some ((w.withBook (w.book.serveAll S before).2).save.1.map fun _ => .saved) ::
        (behind.map (Request.unserved false) ++ refused.map fun _ => some (.error .stopped)) := by
  have hdrop : (before ++ .shutdown :: behind).drop ((w.book.serveAll S before).1.length + 1) = behind := by
    rw [Book.length_serveAll, ← List.drop_drop, List.drop_left]
    rfl
  unfold seen
  rw [h.held, List.map_append, h.answered.map_seen?, h.isOpen, List.length_append, List.length_singleton,
    hdrop]
  simp [Reply.seen?]

end Ended

namespace Serving

/-- Replies of an open service: what was served, and nothing yet for what waits. -/
theorem seen_eq (h : c.Serving S w served waiting) :
    c.seen = (w.book.serveAll S served).1.map some ++ waiting.map (Request.unserved true) := by
  unfold seen
  rw [h.held, h.answered.map_seen?, h.isOpen, Book.length_serveAll, List.drop_left]

/-- An open service stays open until it takes the request to shut down. -/
theorem moveAll (hS : S.Keyed) (hk : w.book.IsKept S) (h : c.Serving S w served waiting)
    (moves : List Move) :
    (.shutdown ∉ c.taken S moves ∧ ∃ left, waiting ++ sent moves = c.taken S moves ++ left ∧
      (c.moveAll S moves).Serving S w (served ++ c.taken S moves) left) ∨
    ∃ before behind refused, c.taken S moves = before ++ [.shutdown] ∧ .shutdown ∉ before ∧
      waiting ++ sent moves = before ++ .shutdown :: (behind ++ refused) ∧
      (c.moveAll S moves).Ended S w (served ++ before) behind refused := by
  induction moves generalizing c served waiting with
  | nil =>
    refine .inl ⟨List.not_mem_nil, waiting, ?_, ?_⟩
    · exact List.append_nil _
    · show c.Serving S w (served ++ []) waiting
      rw [List.append_nil]
      exact h
  | cons x moves ih =>
    cases x with
    | send r =>
      have hsent : waiting ++ sent (.send r :: moves) = (waiting ++ [r]) ++ sent moves := by
        rw [List.append_assoc]
        rfl
      rw [hsent]
      exact ih (h.send r)
    | take =>
      have htaken : c.taken S (.take :: moves) = waiting.head?.toList ++ (c.move S .take).taken S moves := by
        show (c.takes? .take).toList ++ _ = _
        rw [h.takes?_take]
      cases waiting with
      | nil =>
        rw [htaken]
        show _ ∨ _
        have hstay := h.take_of_nil
        have hrest := ih h
        rw [show c.moveAll S (.take :: moves) = (c.move S .take).moveAll S moves from rfl, hstay]
        exact hrest
      | cons r waiting =>
        by_cases hr : r = .shutdown
        · subst hr
          obtain ⟨hend, hnone⟩ := h.take_shutdown.moveAll moves
          rw [htaken, hnone]
          refine .inr ⟨[], waiting, sent moves, rfl, List.not_mem_nil, rfl, ?_⟩
          rw [List.append_nil]
          exact hend
        · have hne : .shutdown ∉ [r] := by simpa using Ne.symm hr
          rw [htaken]
          rcases ih (h.take hS hk hr) with ⟨hno, left, hsent, hserving⟩ | ⟨before, behind, refused, htake, hno, hsent, hend⟩
          · refine .inl ⟨?_, left, ?_, ?_⟩
            · rw [List.mem_append, not_or]
              exact ⟨hne, hno⟩
            · show r :: (waiting ++ sent moves) = _
              rw [hsent]
              rfl
            · show ((c.move S .take).moveAll S moves).Serving S w (served ++ ([r] ++ _)) left
              rw [← List.append_assoc]
              exact hserving
          · refine .inr ⟨r :: before, behind, refused, ?_, ?_, ?_, ?_⟩
            · rw [htake]
              rfl
            · rw [← List.singleton_append, List.mem_append, not_or]
              exact ⟨hne, hno⟩
            · show r :: (waiting ++ sent moves) = _
              rw [hsent]
              rfl
            · show ((c.move S .take).moveAll S moves).Ended S w (served ++ ([r] ++ before)) behind refused
              rw [← List.append_assoc]
              exact hend

/-- The worker empties the mailbox. -/
theorem settle (hS : S.Keyed) (hk : w.book.IsKept S) (h : c.Serving S w served waiting)
    (hw : .shutdown ∉ waiting) :
    Serving S w (served ++ waiting) [] { c with service := c.service.settle S } := by
  induction waiting generalizing c served with
  | nil =>
    rw [Service.settle_of_nil h.mailbox, List.append_nil]
    exact h
  | cons r waiting ih =>
    rw [List.mem_cons, not_or] at hw
    have hrest := ih (h.take hS hk (Ne.symm hw.1)) hw.2
    rw [List.append_assoc] at hrest
    rw [← Service.settle_work]
    exact hrest

/-- As the last client is gone, the worker serves all that waits, saves its history and ends. The clients
were told what the book answers to each of their requests. -/
theorem hangUp (hS : S.Keyed) (hk : w.book.IsKept S) (h : c.Serving S w served waiting)
    (hw : .shutdown ∉ waiting) :
    (c.hangUp S).service.worker = (w.withBook (w.book.serveAll S (served ++ waiting)).2).save.2 ∧
      (c.hangUp S).seen = (w.book.serveAll S (served ++ waiting)).1.map some := by
  have hs := h.settle hS hk hw
  have hend : c.service.hangUp S =
      { c.service.settle S with worker := (c.service.settle S).worker.save.2, isOpen := false } := by
    unfold Service.hangUp
    simp only
    rw [if_pos hs.isOpen]
  have hanswered : (c.service.hangUp S).Answered (served ++ waiting)
      (w.book.serveAll S (served ++ waiting)).1 := by
    have := hs.answered
    rw [List.append_nil] at this
    rw [hend]
    exact { this with }
  constructor
  · show (c.service.hangUp S).worker = _
    rw [hend]
    exact congrArg (fun w => (Worker.save w).2) hs.worker
  · show c.held.map (Reply.seen? (c.service.hangUp S)) = _
    rw [h.held, hanswered.map_seen?, Book.length_serveAll, List.drop_length, List.map_nil, List.append_nil]

end Serving

/-- Whatever is done at a service, it is open and has served what was taken, or has ended by the request to
shut down that was taken last. -/
theorem serving_or_ended (hS : S.Keyed) (hk : w.book.IsKept S) (moves : List Move) :
    let start : Course σ := { service := .ofWorker w }
    (.shutdown ∉ start.taken S moves ∧ ∃ waiting, sent moves = start.taken S moves ++ waiting ∧
      (start.moveAll S moves).Serving S w (start.taken S moves) waiting) ∨
    ∃ before behind refused, start.taken S moves = before ++ [.shutdown] ∧ .shutdown ∉ before ∧
      sent moves = before ++ .shutdown :: (behind ++ refused) ∧
      (start.moveAll S moves).Ended S w before behind refused :=
  (Serving.start S w).moveAll hS hk moves

end

/-! ## Services over a database -/

/-- What a worker begins with over a database is kept. -/
theorem isKept_restore (d : Database) (file : HistoryFile) (disk : Disk) :
    (Worker.restore Database.store d file disk).book.IsKept Database.store :=
  ⟨(file.sound_loadOrEmpty disk).wf.drop _, History.isBacked_prune _ _ _⟩

/-- A service is one history behind a queue, and ends when it is told to and not before. Let it begin over
any database, with any file, and let clients send and the worker take requests in any order.

Either no request to shut down was taken. Then the service is open; the worker is where a book is that
was asked what was taken, in that order, and clients were told what the book answers, and nothing yet of
the requests that wait but that a removal is accepted. Were all clients to go now, the history that is
saved is the one after all that was sent.

Or a request to shut down was the last that was taken. Then its reply is that of saving the history after
exactly the requests before it. Of the requests behind it only removals are accepted, and all that is
sent from then on is told that the service has stopped. Nothing that is done any more changes the
history, the database or the file. -/
theorem served_in_order (d : Database) (file : HistoryFile) (disk : Disk) (moves : List Move) :
    let w := Worker.restore Database.store d file disk
    let start : Course Database := { service := .ofWorker w }
    let c := start.moveAll Database.store moves
    let taken := start.taken Database.store moves
    (.shutdown ∉ taken ∧ c.service.isOpen = true ∧
      c.service.worker = w.withBook (w.book.serveAll Database.store taken).2 ∧
      ∃ waiting, sent moves = taken ++ waiting ∧
        c.seen = (w.book.serveAll Database.store taken).1.map some ++ waiting.map (Request.unserved true) ∧
        (.shutdown ∉ waiting →
          (c.hangUp Database.store).service.worker =
            (w.withBook (w.book.serveAll Database.store (sent moves)).2).save.2 ∧
          (c.hangUp Database.store).seen = (w.book.serveAll Database.store (sent moves)).1.map some)) ∨
    ∃ before behind refused, taken = before ++ [.shutdown] ∧ .shutdown ∉ before ∧
      sent moves = before ++ .shutdown :: (behind ++ refused) ∧ c.service.isOpen = false ∧
      c.service.worker = (w.withBook (w.book.serveAll Database.store before).2).save.2 ∧
      c.seen = (w.book.serveAll Database.store before).1.map some ++
        some ((w.withBook (w.book.serveAll Database.store before).2).save.1.map fun _ => .saved) ::
          (behind.map (Request.unserved false) ++ refused.map fun _ => some (.error .stopped)) ∧
      ∀ more, (c.moveAll Database.store more).service.worker = c.service.worker ∧
        (c.moveAll Database.store more).seen = c.seen ++ (sent more).map fun _ => some (.error .stopped) := by
  intro w start c taken
  have hk := isKept_restore d file disk
  rcases serving_or_ended Database.keyed_store hk moves with
    ⟨hno, waiting, hsent, hserving⟩ | ⟨before, behind, refused, htaken, hno, hsent, hended⟩
  · refine .inl ⟨hno, hserving.isOpen, hserving.worker, waiting, hsent, hserving.seen_eq, fun hw => ?_⟩
    rw [hsent]
    exact hserving.hangUp Database.keyed_store hk hw
  · refine .inr ⟨before, behind, refused, htaken, hno, hsent, hended.isOpen, hended.worker, hended.seen_eq,
      fun more => ?_⟩
    have hmore := (hended.moveAll more).1
    refine ⟨hmore.worker.trans hended.worker.symm, ?_⟩
    rw [hmore.seen_eq, hended.seen_eq]
    simp only [List.map_append, List.append_assoc, List.cons_append]

end Course

end RecentLaunches
