/-
The work on the history that one command does. A service of its own is started and asked, one request after
the other, what the command needs; the answers are those of a book over a map of configurations, and the
history that is saved in the end is the one of that book.
-/
import RecentLaunches.Proofs.Database.Connected
import RecentLaunches.Session

namespace RecentLaunches

/-! ## Answers -/

section

variable {σ : Type} {S : Store σ}

/-- What is printed about the answer to a request. -/
def Book.line (S : Store σ) (b : Book σ) (r : Request) : List String :=
  match (b.serve S r).1 with
  | .ok a => Session.report r a
  | .error _ => []

/-- What is printed about the answers to some requests, one after the other. -/
def Book.printed (S : Store σ) : Book σ → List Request → List String
  | _, [] => []
  | b, r :: rest => b.line S r ++ printed S (b.serve S r).2 rest

/-- A book has an answer to every request. -/
theorem Book.exists_serve (b : Book σ) (r : Request) :
    ∃ a, (b.serve S r).1 = .ok a ∧ b.line S r = Session.report r a := by
  cases r <;> exact ⟨_, rfl, rfl⟩

end

/-- Requests are answered alike over a connection and its map. -/
theorem Book.Fits.serveAll {place : Location} {b : Book Connection} {b' : Book Registry} (h : b.Fits place b')
    (rs : List Request) :
    b.printed Connection.store rs = b'.printed Registry.store rs ∧
      (b.serveAll Connection.store rs).2.Fits place (b'.serveAll Registry.store rs).2 ∧
      b.store.Awaits (b.serveAll Connection.store rs).2.store := by
  induction rs generalizing b b' with
  | nil => exact ⟨rfl, h, .refl _⟩
  | cons r rs ih =>
    obtain ⟨hanswer, hfits, hawaits⟩ := h.serve r
    obtain ⟨hprinted, hrest, hmore⟩ := ih hfits
    refine ⟨?_, hrest, hawaits.trans hmore⟩
    show b.line Connection.store r ++ _ = b'.line Registry.store r ++ _
    rw [hprinted]
    unfold Book.line
    rw [hanswer]

/-- No launch is gone from a connection if none is from its map. -/
theorem Book.Fits.isKept {place : Location} {b : Book Connection} {b' : Book Registry} (h : b.Fits place b')
    (hk : b'.IsKept Registry.store) : b.IsKept Connection.store := by
  obtain ⟨hw, hb⟩ := hk
  rw [← h.history] at hw hb
  exact ⟨hw, fun e he => (h.store.agree.isGone e.memento).trans (hb e he)⟩

namespace Session

/-! ## Asking -/

/-- A client alone with a service prints what the book answers. -/
theorem ask_of_atRest {service : Service Connection} (h : service.AtRest)
    (hk : service.worker.book.IsKept Connection.store) {rs : List Request} (hrs : .shutdown ∉ rs) :
    (ask service rs).1 = { printed := service.worker.book.printed Connection.store rs } ∧
      (ask service rs).2.AtRest ∧
      (ask service rs).2.worker =
        service.worker.withBook (service.worker.book.serveAll Connection.store rs).2 := by
  induction rs generalizing service with
  | nil => exact ⟨rfl, h, rfl⟩
  | cons r rs ih =>
    rw [List.mem_cons, not_or] at hrs
    obtain ⟨hanswer, hrest, hworker⟩ :=
      Service.call_of_atRest Connection.keyed_store h hk.wf (Ne.symm hrs.1)
    obtain ⟨a, ha, hline⟩ := Book.exists_serve (S := Connection.store) service.worker.book r
    have hbook : (service.call Connection.store r).2.worker.book =
        (service.worker.book.serve Connection.store r).2 := by
      rw [hworker]
      rfl
    have hnext := ih hrest (by rw [hbook]; exact hk.serve Connection.keyed_store r) hrs.2
    rw [hbook] at hnext
    obtain ⟨hprinted, hend, hlast⟩ := hnext
    have hcall : service.call Connection.store r = (.ok a, (service.call Connection.store r).2) :=
      Prod.ext (hanswer.trans ha) rfl
    unfold ask
    rw [hcall]
    refine ⟨?_, hend, ?_⟩
    · simp only
      rw [hprinted]
      show Done.mk (report r a ++ _) _ = Done.mk (service.worker.book.line Connection.store r ++ _) _
      rw [hline]
    · show (ask (service.call Connection.store r).2 rs).2.worker = _
      rw [hlast, hworker]
      rfl

/-! ## Working -/

/-- A service whose worker has written what was changed in the database. -/
def flushed (service : Service Connection) : Service Connection :=
  { service with
    worker := { service.worker with disk := service.worker.store.flush service.worker.disk } }

/-- Some work is done by a service that is asked and, once the database is written, shut down. -/
theorem work_eq (s : Session) (w : Work) :
    s.work w =
      let asked := ask (.restore Connection.store s.connection s.file s.disk) w.requests
      let ended := (flushed asked.2).call Connection.store .shutdown
      ({ asked.1 with
          result :=
            match asked.1.result with
            | .ok () => ended.1.map fun _ => ()
            | .error e => .error e },
        { s with connection := ended.2.worker.store, disk := ended.2.worker.disk }) :=
  rfl

theorem shutdown_notMem_requests (w : Work) : .shutdown ∉ w.requests := by
  cases w <;> simp [Work.requests]

variable {s : Session} {place : Location} {r : Registry}

/-- What some work comes to. The book begins with the history that is kept, less the launches whose configuration
is gone; when its requests are served, what was changed in the database is written, and then the history saved. -/
theorem work_of_isKept {history : History}
    (hh : history = (s.file.loadOrEmpty s.disk).prune Connection.store s.connection)
    (hk : (Book.mk s.connection history).IsKept Connection.store) (w : Work) {b : Book Connection}
    (hb : b = ((Book.mk s.connection history).serveAll Connection.store w.requests).2) :
    s.work w =
      ({ printed := (Book.mk s.connection history).printed Connection.store w.requests,
         result := (s.file.save (b.store.flush s.disk) b.history).1 },
        { s with connection := b.store, disk := (s.file.save (b.store.flush s.disk) b.history).2 }) := by
  have hrestore : Service.restore Connection.store s.connection s.file s.disk =
      .ofWorker ⟨history, s.connection, s.file, s.disk⟩ := by
    rw [hh]
    rfl
  have hbegin : Service.AtRest (.ofWorker ⟨history, s.connection, s.file, s.disk⟩) := ⟨rfl, rfl⟩
  obtain ⟨hdone, hrest, hworker⟩ := ask_of_atRest hbegin hk (shutdown_notMem_requests w)
  rw [work_eq, hrestore]
  generalize ask (.ofWorker ⟨history, s.connection, s.file, s.disk⟩) w.requests = asked at hdone hrest hworker ⊢
  obtain ⟨done, service⟩ := asked
  simp only at hdone hrest hworker ⊢
  have hserved : service.worker = ⟨b.history, b.store, s.file, s.disk⟩ := by
    rw [hworker, hb]
    rfl
  -- the shutdown saves the history of the book, once the database is written
  obtain ⟨hanswer, hlast⟩ := Service.call_shutdown_of_atRest (S := Connection.store) (s := flushed service)
    ⟨hrest.isOpen, hrest.mailbox⟩
  have hflushed : (flushed service).worker = ⟨b.history, b.store, s.file, b.store.flush s.disk⟩ := by
    unfold flushed
    rw [hserved]
  rw [hflushed] at hanswer hlast
  rw [hanswer, hlast, hdone]
  unfold Worker.save
  simp only
  rcases s.file.save (b.store.flush s.disk) b.history with ⟨e | ⟨⟩, d⟩ <;> rfl

/-- What some work on a session with a map of configurations comes to. Its book begins with the history that
is kept, less the launches whose configuration is not in the map. If the history of the book can be saved in
the end, the work is done with what the book prints. -/
theorem work_of_fits (hc : s.connection.Fits place r) {history : History}
    (hh : history = (s.file.loadOrEmpty s.disk).prune Registry.store r)
    (hk : (Book.mk r history).IsKept Registry.store) (w : Work) :
    ∃ c, c.Fits place ((Book.mk r history).serveAll Registry.store w.requests).2.store ∧
      s.connection.Awaits c ∧
      ∀ d, s.file.save (c.flush s.disk) ((Book.mk r history).serveAll Registry.store w.requests).2.history =
          (.ok (), d) →
        s.work w = ({ printed := (Book.mk r history).printed Registry.store w.requests },
          { s with connection := c, disk := d }) := by
  have hfits : (Book.mk s.connection history).Fits place ⟨r, history⟩ := ⟨hc, rfl⟩
  obtain ⟨hprinted, hserved, hawaits⟩ := hfits.serveAll w.requests
  have hbegun : history = (s.file.loadOrEmpty s.disk).prune Connection.store s.connection := by
    rw [hc.agree.prune, ← hh]
  refine ⟨_, hserved.store, hawaits, fun d hd => ?_⟩
  rw [← hserved.history] at hd
  rw [work_of_isKept hbegun (hfits.isKept hk) w rfl, hd, hprinted]

end Session

end RecentLaunches
