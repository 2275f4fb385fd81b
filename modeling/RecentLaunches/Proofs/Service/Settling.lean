/-
A service whose worker empties the mailbox. What comes of that does not depend on how far the worker has
got already, and a request that is sent later is served after all that wait. One at a time, the requests
are answered as by a book that is asked directly.
-/
import RecentLaunches.Proofs.History.Book
import RecentLaunches.Service

namespace RecentLaunches

variable {σ : Type} {S : Store σ}

/-! ## One request at a time -/

/-- What a request is answered, and the book after it. -/
def Book.serve (S : Store σ) (b : Book σ) : Request → Except Fault Answer × Book σ
  | .record launch =>
    (.ok (.recorded (b.history.record S b.store launch).recorded), b.record S launch)
  | .removeEntry entry => (.ok .accepted, { b with history := b.history.removeEntry entry })
  | .configurationRemoved m => (.ok .accepted, { b with history := b.history.removeConfiguration m })
  | .history mode => (.ok (.launches (b.history.list mode)), b)
  | .latest => (.ok (.latest b.history.latest), b)
  | .shutdown => (.ok .saved, b)

/-- What some requests are answered, one after the other, and the book after them. -/
def Book.serveAll (S : Store σ) : Book σ → List Request → List (Except Fault Answer) × Book σ
  | b, [] => ([], b)
  | b, r :: rest =>
    ((b.serve S r).1 :: (serveAll S (b.serve S r).2 rest).1, (serveAll S (b.serve S r).2 rest).2)

theorem Book.serveAll_append (b : Book σ) (rs : List Request) (r : Request) :
    b.serveAll S (rs ++ [r]) =
      ((b.serveAll S rs).1 ++ [((b.serveAll S rs).2.serve S r).1], ((b.serveAll S rs).2.serve S r).2) := by
  induction rs generalizing b with
  | nil => rfl
  | cons q rs ih =>
    rw [List.cons_append, serveAll, ih, serveAll]
    rfl

theorem Book.IsKept.serve (hS : S.Keyed) {b : Book σ} (hk : b.IsKept S) (r : Request) :
    (b.serve S r).2.IsKept S := by
  cases r with
  | record launch => exact hk.record hS launch
  | removeEntry entry => exact hk.drop _
  | configurationRemoved m => exact hk.drop _
  | history mode => exact hk
  | latest => exact hk
  | shutdown => exact hk

theorem Book.IsNamed.serve (hS : S.Keyed) {b : Book σ} (hn : b.IsNamed S) (r : Request) :
    (b.serve S r).2.IsNamed S := by
  cases r with
  | record launch => exact hn.record hS launch
  | removeEntry entry => exact hn.drop _
  | configurationRemoved m => exact hn.drop _
  | history mode => exact hn
  | latest => exact hn
  | shutdown => exact hn

theorem Book.IsKept.serveAll (hS : S.Keyed) {b : Book σ} (hk : b.IsKept S) (rs : List Request) :
    (b.serveAll S rs).2.IsKept S := by
  induction rs generalizing b with
  | nil => exact hk
  | cons r rs ih => exact ih (hk.serve hS r)

theorem Book.IsNamed.serveAll (hS : S.Keyed) {b : Book σ} (hn : b.IsNamed S) (rs : List Request) :
    (b.serveAll S rs).2.IsNamed S := by
  induction rs generalizing b with
  | nil => exact hn
  | cons r rs ih => exact ih (hn.serve hS r)

/-! ## The worker -/

namespace Worker

/-- The store and the history of a worker. -/
def book (w : Worker σ) : Book σ :=
  ⟨w.store, w.history⟩

/-- The worker with another store and history. -/
def withBook (w : Worker σ) (b : Book σ) : Worker σ :=
  { w with history := b.history, store := b.store }

/-- A worker serves its book, and goes on. -/
theorem perform_eq (hS : S.Keyed) {w : Worker σ} (hw : w.history.WF) {r : Request} (hr : r ≠ .shutdown) :
    w.perform S r = ⟨w.withBook (w.book.serve S r).2,
      if r.awaitsWorker then some (w.book.serve S r).1 else none, true⟩ := by
  cases r with
  | record launch =>
    unfold perform
    simp only [History.verdict_record hS hw launch]
    rfl
  | removeEntry entry => rfl
  | configurationRemoved m => rfl
  | history mode => rfl
  | latest => rfl
  | shutdown => exact absurd rfl hr

theorem save_of_save {w : Worker σ} {d : Disk} (h : w.file.save w.disk w.history = (.ok (), d)) :
    w.save = (.ok (), { w with disk := d }) := by
  unfold save
  rw [h]

end Worker

/-! ## Emptying the mailbox -/

namespace Service

variable {s : Service σ}

/-- The service with one more request in its mailbox. -/
def push (s : Service σ) (r : Request) : Service σ :=
  { s with mailbox := s.mailbox ++ [(s.issued, r)], issued := s.issued + 1 }

theorem send_of_isOpen (h : s.isOpen = true) (r : Request) : s.send r = .ok (s.issued, s.push r) := by
  unfold send
  rw [if_pos h]
  rfl

theorem work_of_nil (h : s.mailbox = []) : s.work S = s := by
  unfold work
  rw [h]

theorem workTimes_of_nil (h : s.mailbox = []) (n : Nat) : s.workTimes S n = s := by
  induction n with
  | zero => rfl
  | succ n ih => rw [workTimes, work_of_nil h, ih]

theorem settle_of_nil (h : s.mailbox = []) : s.settle S = s :=
  workTimes_of_nil h _

/-- What is left in the mailbox after a request was taken out. -/
theorem mailbox_work {x : Ticket × Request} {rest : List (Ticket × Request)} (h : s.mailbox = x :: rest) :
    (s.work S).mailbox = if (s.work S).isOpen then rest else [] := by
  obtain ⟨t, r⟩ := x
  unfold work
  rw [h]

/-- The worker comes to the same end wherever it is on the way. -/
theorem settle_work (s : Service σ) : (s.work S).settle S = s.settle S := by
  rcases hm : s.mailbox with _ | ⟨x, rest⟩
  · rw [work_of_nil hm]
  · have hleft := mailbox_work (S := S) hm
    have hs : s.settle S = (s.work S).workTimes S rest.length := by
      unfold settle
      rw [hm]
      rfl
    rw [hs]
    split_ifs at hleft
    · unfold settle
      rw [hleft]
    · rw [settle_of_nil hleft, workTimes_of_nil hleft]

theorem mailbox_settle (s : Service σ) : (s.settle S).mailbox = [] := by
  induction hn : s.mailbox.length using Nat.strong_induction_on generalizing s with
  | _ n ih =>
    rcases hm : s.mailbox with _ | ⟨x, rest⟩
    · rw [settle_of_nil hm]
      exact hm
    · rw [← settle_work]
      refine ih _ ?_ _ rfl
      rw [mailbox_work hm, ← hn, hm]
      split_ifs
      · exact Nat.lt_succ_self _
      · exact Nat.succ_pos _

theorem issued_workTimes (n : Nat) (s : Service σ) : (s.workTimes S n).issued = s.issued := by
  induction n generalizing s with
  | zero => rfl
  | succ n ih =>
    rw [workTimes, ih]
    unfold work
    split <;> rfl

theorem issued_settle (s : Service σ) : (s.settle S).issued = s.issued :=
  issued_workTimes _ s

theorem isOpen_work_of_settle (h : (s.settle S).isOpen = true) (hm : s.mailbox ≠ []) :
    (s.work S).isOpen = true := by
  by_contra ho
  obtain ⟨x, rest, hx⟩ := List.exists_cons_of_ne_nil hm
  -- a worker that ended has thrown the mailbox away
  have hleft : (s.work S).mailbox = [] := by
    rw [mailbox_work hx, if_neg ho]
  rw [← settle_work, settle_of_nil hleft] at h
  exact ho h

/-- A request sent meanwhile waits at the end of the mailbox. -/
theorem work_push (hm : s.mailbox ≠ []) (ho : (s.work S).isOpen = true) (r : Request) :
    (s.push r).work S = (s.work S).push r := by
  obtain ⟨⟨t, q⟩, rest, hx⟩ := List.exists_cons_of_ne_nil hm
  have hpush : (s.push r).mailbox = (t, q) :: (rest ++ [(s.issued, r)]) := by
    show s.mailbox ++ _ = _
    rw [hx, List.cons_append]
  unfold work at ho ⊢
  rw [hx] at ho
  rw [hpush, hx]
  have hgoes : (s.worker.perform S q).goesOn = true := ho
  show Service.mk _ _ (if (s.worker.perform S q).goesOn = true then _ else _) _ _ =
    Service.mk _ _ ((if (s.worker.perform S q).goesOn = true then rest else []) ++ [(s.issued, r)]) _ _
  rw [if_pos hgoes, if_pos hgoes]
  rfl

/-- The last request is served after all others. -/
theorem settle_push (h : (s.settle S).isOpen = true) (r : Request) :
    (s.push r).settle S = ((s.settle S).push r).work S := by
  induction hn : s.mailbox.length using Nat.strong_induction_on generalizing s with
  | _ n ih =>
    rcases hm : s.mailbox with _ | ⟨x, rest⟩
    · have hpush : (s.push r).mailbox = [(s.issued, r)] := by
        show s.mailbox ++ _ = _
        rw [hm, List.nil_append]
      rw [settle_of_nil hm]
      unfold settle
      rw [hpush]
      rfl
    · have hne : s.mailbox ≠ [] := by
        rw [hm]
        exact List.cons_ne_nil _ _
      have ho := isOpen_work_of_settle h hne
      have hlt : (s.work S).mailbox.length < n := by
        rw [mailbox_work hm, if_pos ho, ← hn, hm]
        exact Nat.lt_succ_self _
      calc (s.push r).settle S
        _ = ((s.push r).work S).settle S := (settle_work _).symm
        _ = ((s.work S).push r).settle S := by rw [work_push hne ho]
        _ = (((s.work S).settle S).push r).work S := ih _ hlt (by rw [settle_work]; exact h) rfl
        _ = ((s.settle S).push r).work S := by rw [settle_work]

/-! ## The request that the worker takes -/

/-- The service after its worker has served a request. -/
theorem work_of_cons (hS : S.Keyed) {t : Ticket} {r : Request} {rest : List (Ticket × Request)}
    (hm : s.mailbox = (t, r) :: rest) (hw : s.worker.history.WF) (hr : r ≠ .shutdown) :
    s.work S =
      { worker := s.worker.withBook (s.worker.book.serve S r).2
        isOpen := true
        mailbox := rest
        issued := s.issued
        answers := if r.awaitsWorker then (t, (s.worker.book.serve S r).1) :: s.answers else s.answers } := by
  have hstep : s.worker.perform S r = _ := Worker.perform_eq hS hw hr
  unfold work
  rw [hm]
  simp only [hstep]
  split_ifs <;> rfl

/-- The service after its worker was told to shut down: the history is saved, and all that waits is
thrown away. -/
theorem work_of_shutdown {t : Ticket} {rest : List (Ticket × Request)}
    (hm : s.mailbox = (t, .shutdown) :: rest) :
    s.work S =
      { worker := s.worker.save.2
        isOpen := false
        mailbox := []
        issued := s.issued
        answers := (t, s.worker.save.1.map fun _ => .saved) :: s.answers } := by
  unfold work
  rw [hm]
  rfl

theorem mailbox_push_of_nil (hm : s.mailbox = []) (r : Request) :
    (s.push r).mailbox = [(s.issued, r)] := by
  show s.mailbox ++ _ = _
  rw [hm, List.nil_append]

/-- The service after it has served a request that found it at rest. -/
theorem work_push_of_nil (hS : S.Keyed) (hm : s.mailbox = []) (hw : s.worker.history.WF) {r : Request}
    (hr : r ≠ .shutdown) :
    (s.push r).work S =
      { worker := s.worker.withBook (s.worker.book.serve S r).2
        isOpen := true
        mailbox := []
        issued := s.issued + 1
        answers :=
          if r.awaitsWorker then (s.issued, (s.worker.book.serve S r).1) :: s.answers else s.answers } :=
  work_of_cons hS (mailbox_push_of_nil hm r) hw hr

/-- A service at rest that is told to shut down saves its history and ends. -/
theorem work_push_shutdown (hm : s.mailbox = []) :
    (s.push .shutdown).work S =
      { worker := s.worker.save.2
        isOpen := false
        mailbox := []
        issued := s.issued + 1
        answers := (s.issued, s.worker.save.1.map fun _ => .saved) :: s.answers } :=
  work_of_shutdown (mailbox_push_of_nil hm .shutdown)

/-! ## A client alone with a service -/

/-- A service is at rest: it is open and nothing waits. -/
structure AtRest (s : Service σ) : Prop where
  isOpen : s.isOpen = true
  mailbox : s.mailbox = []

theorem settle_push_of_atRest (h : s.AtRest) (r : Request) : (s.push r).settle S = (s.push r).work S := by
  have hs := settle_of_nil (S := S) h.mailbox
  have hpush := settle_push (S := S) (s := s) (by rw [hs]; exact h.isOpen) r
  rw [hpush, hs]

/-- A client alone is answered by the book, and finds the service at rest again. -/
theorem call_of_atRest (hS : S.Keyed) (h : s.AtRest) (hw : s.worker.history.WF) {r : Request}
    (hr : r ≠ .shutdown) :
    (s.call S r).1 = (s.worker.book.serve S r).1 ∧ (s.call S r).2.AtRest ∧
      (s.call S r).2.worker = s.worker.withBook (s.worker.book.serve S r).2 := by
  have hwork := work_push_of_nil hS h.mailbox hw hr
  unfold call
  rw [send_of_isOpen h.isOpen]
  simp only
  rw [settle_push_of_atRest h, hwork]
  by_cases ha : r.awaitsWorker = true
  · rw [if_pos ha]
    refine ⟨?_, ⟨rfl, rfl⟩, rfl⟩
    unfold reply?
    simp only
    rw [if_pos ha, List.lookup_cons, beq_self_eq_true]
    rfl
  · rw [if_neg ha]
    refine ⟨?_, ⟨rfl, rfl⟩, rfl⟩
    cases r <;> first | rfl | exact absurd rfl ha

/-- A client alone is told whether the history was saved. -/
theorem call_shutdown_of_atRest (h : s.AtRest) :
    (s.call S .shutdown).1 = s.worker.save.1.map (fun _ => .saved) ∧
      (s.call S .shutdown).2.worker = s.worker.save.2 := by
  have hwork := work_push_shutdown (S := S) h.mailbox
  unfold call
  rw [send_of_isOpen h.isOpen]
  simp only
  rw [settle_push_of_atRest h, hwork]
  refine ⟨?_, rfl⟩
  show (reply? _ s.issued).getD _ = _
  unfold reply?
  simp only
  rw [List.lookup_cons, beq_self_eq_true]
  rfl

end Service

end RecentLaunches
