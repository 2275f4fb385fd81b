/-
What a confirmed update is worth. A client is told that a record is remembered once it is, but that a
removal is accepted as soon as it waits in the mailbox. So a history is saved with every record that was
confirmed; a removal that waits behind a request to shut down is confirmed and never made.
-/
import RecentLaunches.Proofs.Service.Queue

namespace RecentLaunches

/-! ## Confirmations -/

/-- Whether a client was told that its update is made. -/
def Request.isConfirmed : Request → Option (Except Fault Answer) → Bool
  | record _, some (.ok (.recorded true)) => true
  | removeEntry _, some (.ok .accepted) => true
  | configurationRemoved _, some (.ok .accepted) => true
  | _, _ => false

/-- The updates among some requests that were confirmed, in order. -/
def confirmed (requests : List Request) (replies : List (Option (Except Fault Answer))) : List Request :=
  ((requests.zip replies).filter fun x => x.1.isConfirmed x.2).map (·.1)

/-- The updates that a book confirms, all of which it makes. -/
def Book.confirmed {σ : Type} (S : Store σ) (b : Book σ) (requests : List Request) : List Request :=
  RecentLaunches.confirmed requests ((b.serveAll S requests).1.map some)

theorem confirmed_append {rs qs : List Request} {as bs : List (Option (Except Fault Answer))}
    (h : rs.length = as.length) : confirmed (rs ++ qs) (as ++ bs) = confirmed rs as ++ confirmed qs bs := by
  unfold confirmed
  rw [List.zip_append h, List.filter_append, List.map_append]

theorem confirmed_map (rs : List Request) (f : Request → Option (Except Fault Answer)) :
    confirmed rs (rs.map f) = rs.filter fun r => r.isConfirmed (f r) := by
  induction rs with
  | nil => rfl
  | cons r rs ih =>
    unfold confirmed at ih ⊢
    rw [List.map_cons, List.zip_cons_cons, List.filter_cons, List.filter_cons, ← ih]
    split_ifs <;> rfl

/-- Of what was not served the removals are confirmed, whether the service is open or not. -/
theorem isConfirmed_unserved (isOpen : Bool) (r : Request) :
    r.isConfirmed (r.unserved isOpen) = !r.awaitsWorker := by
  cases isOpen <;> cases r <;> rfl

theorem confirmed_unserved (isOpen : Bool) (rs : List Request) :
    confirmed rs (rs.map (Request.unserved isOpen)) = rs.filter fun r => !r.awaitsWorker := by
  rw [confirmed_map]
  exact List.filter_congr fun r _ => isConfirmed_unserved isOpen r

theorem confirmed_shutdown (rs : List Request) (reply : Option (Except Fault Answer))
    (replies : List (Option (Except Fault Answer))) :
    confirmed (.shutdown :: rs) (reply :: replies) = confirmed rs replies :=
  rfl

theorem confirmed_refused (rs : List Request) :
    confirmed rs (rs.map fun _ => some (.error .stopped)) = [] := by
  rw [confirmed_map, List.filter_eq_nil_iff]
  intro r _
  cases r <;> exact Bool.false_ne_true

/-! ## What is saved -/

/-- Where a file can be saved, and what has mementos was served, the history that a worker saves is the one
that is loaded next. -/
theorem Worker.loadOrEmpty_save {σ : Type} {S : Store σ} {w : Worker σ} (hk : w.book.IsKept S)
    (hn : w.book.IsNamed S) (hd : w.disk.IsWritable w.file.path) :
    w.file.loadOrEmpty w.save.2.disk = w.history := by
  obtain ⟨disk, hs, -⟩ := HistoryFile.save_of_isWritable hd w.history
  rw [save_of_save hs]
  exact HistoryFile.loadOrEmpty_of_isNamed hs hk.wf hn.history

/-- A worker has ended and saved the history that some requests led to. Where the file can be saved and
nothing in the database has the empty memento, this is the history that is loaded next. -/
structure Worker.SavedAfter (w : Worker Database) (rs : List Request) (ended : Worker Database) : Prop where
  worker : ended = (w.withBook (w.book.serveAll Database.store rs).2).save.2
  loaded : (∀ c, w.store.get "" ≠ .ok (some c)) → w.disk.IsWritable w.file.path →
    w.file.loadOrEmpty ended.disk = (w.book.serveAll Database.store rs).2.history

theorem Worker.savedAfter_restore {d : Database} {file : HistoryFile} {disk : Disk} {rs : List Request}
    {ended : Worker Database}
    (he : ended = ((restore Database.store d file disk).withBook
      ((restore Database.store d file disk).book.serveAll Database.store rs).2).save.2) :
    (restore Database.store d file disk).SavedAfter rs ended where
  worker := he
  loaded := by
    intro hd hw
    have hk := (Course.isKept_restore d file disk).serveAll Database.keyed_store rs
    have hn : (restore Database.store d file disk).book.IsNamed Database.store :=
      ⟨((file.sound_loadOrEmpty disk).drop _).named, Database.isNamed_iff.2 hd⟩
    rw [he]
    exact loadOrEmpty_save (w := withBook _ _) hk (hn.serveAll Database.keyed_store rs) hw

/-- Which updates a service confirms, and which of them it saves. Let it begin over any database, with any
file, and let clients send and the worker take requests in any order.

As long as no request to shut down was taken, what is confirmed is what the book of the worker has
confirmed and made, and the removals that wait. If all clients go now, nothing that is confirmed is lost:
it is what a book confirms and makes that is asked all that was sent, and the history of that book is saved.

If a request to shut down was taken, the history is saved that the requests before it led to. What is
confirmed is what was confirmed and made by them, and the removals that waited behind the request to shut
down. Those are lost, and no other update. -/
theorem Course.confirmed_of_moves (d : Database) (file : HistoryFile) (disk : Disk) (moves : List Move) :
    let w := Worker.restore Database.store d file disk
    let start : Course Database := { service := .ofWorker w }
    let c := start.moveAll Database.store moves
    let taken := start.taken Database.store moves
    (.shutdown ∉ taken ∧ c.service.worker.book = (w.book.serveAll Database.store taken).2 ∧
      ∃ waiting, sent moves = taken ++ waiting ∧
        confirmed (sent moves) c.seen =
          w.book.confirmed Database.store taken ++ waiting.filter (fun r => !r.awaitsWorker) ∧
        (.shutdown ∉ waiting → w.SavedAfter (sent moves) (c.hangUp Database.store).service.worker ∧
          confirmed (sent moves) (c.hangUp Database.store).seen =
            w.book.confirmed Database.store (sent moves))) ∨
    ∃ before behind refused, taken = before ++ [.shutdown] ∧ .shutdown ∉ before ∧
      sent moves = before ++ .shutdown :: (behind ++ refused) ∧ w.SavedAfter before c.service.worker ∧
      confirmed (sent moves) c.seen =
        w.book.confirmed Database.store before ++ behind.filter (fun r => !r.awaitsWorker) := by
  intro w start c taken
  have hk := isKept_restore d file disk
  have hlen : ∀ rs : List Request, rs.length = ((w.book.serveAll Database.store rs).1.map some).length := by
    intro rs
    rw [List.length_map, Book.length_serveAll]
  rcases serving_or_ended Database.keyed_store hk moves with
    ⟨hno, waiting, hsent, hserving⟩ | ⟨before, behind, refused, htaken, hno, hsent, hended⟩
  · refine .inl ⟨hno, congrArg Worker.book hserving.worker, waiting, hsent, ?_, fun hw => ?_⟩
    · rw [hsent, hserving.seen_eq, confirmed_append (hlen _), confirmed_unserved]
      rfl
    · obtain ⟨hworker, hseen⟩ := hserving.hangUp Database.keyed_store hk hw
      rw [hsent]
      exact ⟨Worker.savedAfter_restore hworker, congrArg (confirmed _) hseen⟩
  · refine .inr ⟨before, behind, refused, htaken, hno, hsent, Worker.savedAfter_restore hended.worker, ?_⟩
    have hbehind : behind.length = (behind.map (Request.unserved false)).length := by
      rw [List.length_map]
    rw [hsent, hended.seen_eq, confirmed_append (hlen _), confirmed_shutdown, confirmed_append hbehind,
      confirmed_unserved, confirmed_refused, List.append_nil]
    rfl

/-- A launch is remembered. Then one client asks to shut down, and another one to remove the launch, before
the worker gets to either. -/
def overtaken : List Move :=
  [.send (.record ⟨"a", .run, "A"⟩), .take, .send .shutdown, .send (.removeEntry ⟨"a", .run, "A"⟩), .take]

/-- A directory is in the place of the history file. -/
def misplaced : Disk :=
  { here := [], nodes := [([HistoryFile.name], .directory)] }

/-- The removal is confirmed, and the launch is loaded again. Where nothing can be saved, a launch is confirmed
that goes with the last client. -/
theorem Course.confirmed_of_overtaken :
    let ended := moveAll Database.store
      { service := .restore Database.store single .fresh { here := [] } } overtaken
    let left := (moveAll Database.store
      { service := .restore Database.store single .fresh misplaced } (overtaken.take 2)).hangUp Database.store
    (confirmed (sent overtaken) ended.seen = [.record ⟨"a", .run, "A"⟩, .removeEntry ⟨"a", .run, "A"⟩] ∧
      (HistoryFile.fresh.loadOrEmpty ended.service.worker.disk).list .run = [⟨"a", .run, "A"⟩]) ∧
    confirmed (sent (overtaken.take 2)) left.seen = [.record ⟨"a", .run, "A"⟩] ∧
      HistoryFile.fresh.loadOrEmpty left.service.worker.disk = .empty := by
  decide +kernel

end RecentLaunches
