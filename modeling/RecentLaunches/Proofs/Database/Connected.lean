/-
An open database as a map of configurations. Statements of a connection whose files can be changed do to its
database what they do to the map, and a history that is served over the connection is served as over the map.
-/
import RecentLaunches.Connection
import RecentLaunches.Proofs.Database.Registry
import RecentLaunches.Proofs.History.Agreement
import RecentLaunches.Proofs.Service.Settling

namespace RecentLaunches

namespace Connection

variable {c c' c'' : Connection} {place : Location} {r r' : Registry}

/-! ## Statements -/

/-- A connection to a file at some place that can be changed, with the configurations of a map. -/
structure Fits (c : Connection) (place : Location) (r : Registry) : Prop where
  medium : c.medium = .file place
  isReadOnly : c.isReadOnly = false
  isWritable : c.isWritable = true
  holds : c.database.Holds r

/-- What a statement changed is still to be written. -/
def Awaits (c c' : Connection) : Prop :=
  c' = c ∨ c'.isChanged = true

theorem Awaits.refl (c : Connection) : c.Awaits c :=
  .inl rfl

theorem Awaits.trans (h : c.Awaits c') (h' : c'.Awaits c'') : c.Awaits c'' := by
  rcases h' with rfl | h'
  · exact h
  · exact .inr h'

theorem database_of_commit {d : Database} (h : c.commit d = .ok c') : c'.database = d := by
  unfold commit at h
  split_ifs at h with he <;> cases h
  · exact he.symm
  · rfl

theorem medium_of_commit {d : Database} (h : c.commit d = .ok c') : c'.medium = c.medium := by
  unfold commit at h
  split_ifs at h <;> cases h <;> rfl

/-- The database after a statement is what the statement makes of the one before. -/
theorem database_of_apply {α : Type} {a : α} {statement : Database → Except DatabaseFault (α × Database)}
    (h : c.apply statement = .ok (a, c')) : statement c.database = .ok (a, c'.database) := by
  unfold apply at h
  simp only [bind, Except.bind] at h
  rcases hs : statement c.database with e | ⟨x, d⟩
  · rw [hs] at h
    cases h
  · rw [hs] at h
    simp only at h
    by_cases hro : c.isReadOnly = true
    · rw [if_pos hro] at h
      cases h
    · rw [if_neg hro] at h
      rcases hc : c.commit d with e | m <;> rw [hc] at h <;> cases h
      rw [database_of_commit hc]

theorem commit_of_fits (h : c.Fits place r) {d : Database} (hd : d.Holds r') :
    ∃ c', c.commit d = .ok c' ∧ c'.Fits place r' ∧ c'.database = d ∧ c.Awaits c' := by
  unfold commit
  split_ifs with he hro hw
  · exact ⟨c, rfl, ⟨h.medium, h.isReadOnly, h.isWritable, he ▸ hd⟩, he.symm, .refl c⟩
  · rw [h.isReadOnly] at hro
    cases hro
  · exact ⟨_, rfl, ⟨h.medium, h.isReadOnly, h.isWritable, hd⟩, rfl, .inr rfl⟩
  · exact absurd h.isWritable hw

theorem apply_of_fits (h : c.Fits place r) {α : Type} {a : α} {d : Database}
    {statement : Database → Except DatabaseFault (α × Database)} (hs : statement c.database = .ok (a, d))
    (hd : d.Holds r') : ∃ c', c.apply statement = .ok (a, c') ∧ c'.Fits place r' ∧ c.Awaits c' := by
  obtain ⟨c', hc, hfits, -, hawaits⟩ := commit_of_fits h hd
  refine ⟨c', ?_, hfits, hawaits⟩
  unfold apply
  rw [hs]
  simp only [bind, Except.bind]
  rw [h.isReadOnly, hc]
  rfl

theorem Fits.delete (h : c.Fits place r) (m : Memento) :
    ∃ c', c.apply (·.delete m) = .ok ((r.find m).isSome, c') ∧ c'.Fits place (r.erase m) ∧ c.Awaits c' := by
  obtain ⟨d, hd, hh⟩ := h.holds.delete m
  exact apply_of_fits h hd hh

theorem Fits.save (h : c.Fits place r) {x : Configuration} (hy : 0 ≤ x.createdAt.date.year)
    (hy' : x.createdAt.date.year ≤ 9999) :
    ∃ c', (c.apply fun d => (d.save x).map ((), ·)) = .ok ((), c') ∧ c'.Fits place (r.insert x.canonical) ∧
      c.Awaits c' := by
  obtain ⟨d, hd, hh⟩ := h.holds.save hy hy'
  exact apply_of_fits h (by rw [hd]; rfl) hh

theorem Fits.rename (h : c.Fits place r) (m : Memento) (name : String) :
    ∃ c', c.apply (·.rename m name) = .ok ((r.find m).isSome, c') ∧ c'.Fits place (r.rename m name) ∧
      c.Awaits c' := by
  obtain ⟨d, hd, hh⟩ := h.holds.rename m name
  exact apply_of_fits h hd hh

/-! ## The store -/

theorem keyed_store : store.Keyed where
  memento_of_resolve := Database.keyed_store.memento_of_resolve
  same_iff := fun _ a b => beq_iff_eq
  resolve_delete := by
    intro c gone m hne
    show ((store.delete c gone).2.database.get m).mapError _ = (c.database.get m).mapError _
    simp only [store]
    rcases ha : c.apply (·.delete gone.memento) with e | ⟨b, c'⟩
    · rfl
    · simp only
      rw [Database.get_delete_of_ne (database_of_apply ha) hne]

theorem Fits.agree (h : c.Fits place r) : Store.Agree store Registry.store c r where
  resolve := by
    intro m
    show (c.database.get m).mapError Fault.database = _
    rw [h.holds.get]
    rfl
  same := rfl

/-- A configuration that leaves the map leaves the database. -/
theorem Fits.afterRequest (h : c.Fits place r) (request : Option Configuration) :
    (History.afterRequest store c request).Fits place (History.afterRequest Registry.store r request) ∧
      c.Awaits (History.afterRequest store c request) := by
  cases request with
  | none => exact ⟨h, .refl c⟩
  | some gone =>
    obtain ⟨c', hc, hfits, hawaits⟩ := h.delete gone.memento
    have hdelete : History.afterRequest store c (some gone) = c' := by
      show (store.delete c gone).2 = c'
      unfold store
      simp only [hc]
    rw [hdelete]
    exact ⟨hfits, hawaits⟩

end Connection

/-! ## Requests -/

/-- The book of a map with the same history as one of a connection. -/
structure Book.Fits (b : Book Connection) (place : Location) (b' : Book Registry) : Prop where
  store : b.store.Fits place b'.store
  history : b.history = b'.history

namespace Book.Fits

variable {b : Book Connection} {place : Location} {b' : Book Registry}

/-- A request is answered alike over both, and leaves books that fit again. -/
theorem serve (h : b.Fits place b') (r : Request) :
    (b.serve Connection.store r).1 = (b'.serve Registry.store r).1 ∧
      (b.serve Connection.store r).2.Fits place (b'.serve Registry.store r).2 ∧
      b.store.Awaits (b.serve Connection.store r).2.store := by
  obtain ⟨c, history⟩ := b
  obtain ⟨reg, history'⟩ := b'
  obtain ⟨hc, hh⟩ := h
  simp only at hc hh
  subst hh
  cases r with
  | record launch =>
    obtain ⟨hrecorded, hhistory, hrequest⟩ := hc.agree.record history launch
    obtain ⟨hfits, hawaits⟩ := hc.afterRequest (History.record Connection.store c history launch).requested
    refine ⟨?_, ⟨?_, hhistory⟩, ?_⟩
    · show Except.ok (Answer.recorded _) = Except.ok (Answer.recorded _)
      rw [hrecorded]
    · show (History.record Connection.store c history launch).store.Fits place
        (History.record Registry.store reg history launch).store
      rw [History.store_record, History.store_record, ← hrequest]
      exact hfits
    · show c.Awaits (History.record Connection.store c history launch).store
      rw [History.store_record]
      exact hawaits
  | removeEntry entry => exact ⟨rfl, ⟨hc, rfl⟩, .refl c⟩
  | configurationRemoved m => exact ⟨rfl, ⟨hc, rfl⟩, .refl c⟩
  | history mode => exact ⟨rfl, ⟨hc, rfl⟩, .refl c⟩
  | latest => exact ⟨rfl, ⟨hc, rfl⟩, .refl c⟩
  | shutdown => exact ⟨rfl, ⟨hc, rfl⟩, .refl c⟩

end Book.Fits

end RecentLaunches
