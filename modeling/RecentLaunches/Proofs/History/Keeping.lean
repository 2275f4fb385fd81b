/-
What comes back from the file that a history is kept in. A saved history is loaded again exactly if
every launch of it has a memento: then it is the same history, else it is refused and the next start has
none. A launch without a memento comes from a configuration without one.
-/
import RecentLaunches.HistoryFile
import RecentLaunches.Proofs.Disk.Saving
import RecentLaunches.Proofs.History.Book

namespace RecentLaunches

namespace HistoryFile

variable {f : HistoryFile} {d d' : Disk} {h : History}

theorem save_eq_ok_iff :
    f.save d h = (.ok (), d') ↔ d.save f.path (.ofText (Document.render h)) = (.ok (), d') := by
  unfold save
  rcases d.save f.path (.ofText (Document.render h)) with ⟨_ | _, d''⟩
  · constructor <;> intro h <;> cases h
  · constructor <;> intro h <;> cases h <;> rfl

/-- Where a history can be saved, any history can be, and then any other. -/
theorem save_of_isWritable (hd : d.IsWritable f.path) (h : History) :
    ∃ d', f.save d h = (.ok (), d') ∧ d'.IsWritable f.path := by
  obtain ⟨d', hs, hw⟩ := hd.save (.ofText (Document.render h))
  exact ⟨d', save_eq_ok_iff.2 hs, hw⟩

/-- The history file of the directory one is in. -/
def fresh : HistoryFile :=
  ⟨name⟩

/-- It can be saved on a disk with nothing on it. -/
theorem isWritable_fresh : Disk.IsWritable { here := [] } fresh.path := by
  have hl : Disk.locate { here := [] } name (Path.steps name) = .ok [name] := by decide +kernel
  have ha : Disk.makeAbove { here := [] } name = (.ok (), { here := [] }) := by
    have hp : Path.parent? name = some "" := by decide +kernel
    unfold Disk.makeAbove
    rw [hp]
    rfl
  refine ⟨.ofText "", _, Disk.save_eq_ok_iff.2 ⟨_, ha, Disk.write_eq_ok_iff.2 ⟨_, ?_, hl, ?_, rfl⟩⟩⟩
  · decide +kernel
  · intro h
    cases h

/-- What is loaded is what the document of the saved history is read as. -/
theorem load_of_save (hs : f.save d h = (.ok (), d')) :
    f.load d' = ((Document.read (Document.render h)).mapError .document).map some := by
  unfold load
  rw [Disk.readText_of_save (save_eq_ok_iff.1 hs)]

/-- A history whose launches have mementos comes back. -/
theorem load_of_isNamed (hs : f.save d h = (.ok (), d')) (hw : h.WF) (hn : h.IsNamed) :
    f.load d' = .ok (some h) := by
  rw [load_of_save hs, Document.read_render hw hn]
  rfl

/-- A history with a launch that has none is refused. -/
theorem load_of_not_isNamed (hs : f.save d h = (.ok (), d')) (hn : ¬h.IsNamed) :
    f.load d' = .error (.document .noMemento) := by
  rw [load_of_save hs, Document.read_render_of_not_isNamed hn]
  rfl

theorem loadOrEmpty_of_isNamed (hs : f.save d h = (.ok (), d')) (hw : h.WF) (hn : h.IsNamed) :
    f.loadOrEmpty d' = h := by
  unfold loadOrEmpty
  rw [load_of_isNamed hs hw hn]

theorem loadOrEmpty_of_not_isNamed (hs : f.save d h = (.ok (), d')) (hn : ¬h.IsNamed) :
    f.loadOrEmpty d' = .empty := by
  unfold loadOrEmpty
  rw [load_of_not_isNamed hs hn]

/-- Where nothing is kept, an empty history is begun with. -/
theorem loadOrEmpty_of_exists? (hd : d.exists? f.path = false) : f.loadOrEmpty d = .empty := by
  unfold loadOrEmpty load Disk.readText
  unfold Disk.exists? at hd
  rcases hf : d.find f.path with e | x
  · cases e <;> rfl
  · rw [hf] at hd
    cases hd

/-- Whatever a file holds, what is begun with can be saved in a document. -/
theorem sound_loadOrEmpty (f : HistoryFile) (d : Disk) : (f.loadOrEmpty d).Sound := by
  unfold loadOrEmpty
  split
  · rename_i h hl
    unfold load at hl
    split at hl
    · cases hl
    · cases hl
    · rename_i text _
      rcases hr : Document.read text with e | h' <;> rw [hr] at hl <;> cases hl
      exact Document.sound_of_read hr
  · exact .empty

end HistoryFile

namespace Book

/-! ## Mementos -/

theorem isNamed_after_delete {d : Database} (hn : Database.store.IsNamed d) (m : Memento) :
    Database.store.IsNamed (after d (d.delete m)) := by
  rw [Database.isNamed_iff] at hn ⊢
  intro c
  by_cases hm : m = ""
  · rcases hd : d.delete m with e | ⟨b, d'⟩
    · exact hn c
    · rw [hm] at hd
      exact Database.get_delete_self hd c
  · rw [get_after_delete_of_ne (Ne.symm hm)]
    exact hn c

theorem isNamed_after_rename {d : Database} (hn : Database.store.IsNamed d) (m : Memento) (name : String) :
    Database.store.IsNamed (after d (d.rename m name)) := by
  rw [Database.isNamed_iff] at hn ⊢
  intro c
  obtain ⟨f, hf⟩ := get_after_rename d m name ""
  rw [hf]
  rcases hg : d.get "" with e | _ | c'
  · intro h; cases h
  · intro h; cases h
  · exact absurd hg (hn c')

theorem isNamed_after_save {d : Database} (hn : Database.store.IsNamed d) {c : Configuration}
    (hc : c.memento ≠ "") : Database.store.IsNamed (after d ((d.save c).map ((), ·))) := by
  rw [Database.isNamed_iff] at hn ⊢
  intro c'
  rcases get_after_save d c "" with hs | ⟨hm, -⟩
  · rw [hs]
    exact hn c'
  · exact absurd hm.symm hc

theorem IsNamed.change {b : Book Database} (hb : b.IsNamed Database.store) {x : Change}
    (hx : ∀ c, x = .save c → c.memento ≠ "") : (b.change x).IsNamed Database.store := by
  cases x with
  | record launch => exact hb.record Database.keyed_store launch
  | removeEntry entry => exact hb.drop _
  | removeConfiguration m => exact hb.drop _
  | prune => exact hb.drop _
  | save c => exact ⟨hb.history, isNamed_after_save hb.store (hx c rfl)⟩
  | rename m name => exact ⟨hb.history, isNamed_after_rename hb.store m name⟩
  | delete m => exact ⟨(hb.drop (·.memento == m)).history, isNamed_after_delete hb.store m⟩

theorem IsNamed.run {b : Book Database} (hb : b.IsNamed Database.store) {changes : List Change}
    (hc : ∀ c, .save c ∈ changes → c.memento ≠ "") : (b.run changes).IsNamed Database.store := by
  induction changes generalizing b with
  | nil => exact hb
  | cons x changes ih =>
    refine ih (hb.change fun c hx => hc c ?_) fun c hx => hc c (List.mem_cons_of_mem _ hx)
    rw [hx]
    exact List.mem_cons_self ..

/-! ## Saving and loading -/

/-- Which histories come back from their file. Whatever led to a history, and whatever was in the file
before: what was saved is loaded as it was if every launch has a memento, and refused otherwise, so that
the next start begins with none. Every launch has a memento where no configuration without one was ever
in the database. -/
theorem load_save_of_run (d : Database) (changes : List Change) (f : HistoryFile) (disk disk' : Disk)
    (hs : f.save disk ((Book.mk d .empty).run changes).history = (.ok (), disk')) :
    (((Book.mk d .empty).run changes).history.IsNamed →
      f.load disk' = .ok (some ((Book.mk d .empty).run changes).history) ∧
        f.loadOrEmpty disk' = ((Book.mk d .empty).run changes).history) ∧
    (¬((Book.mk d .empty).run changes).history.IsNamed →
      f.load disk' = .error (.document .noMemento) ∧ f.loadOrEmpty disk' = .empty) ∧
    ((∀ c, d.get "" ≠ .ok (some c)) → (∀ c, .save c ∈ changes → c.memento ≠ "") →
      ((Book.mk d .empty).run changes).history.IsNamed) := by
  have hw : ((Book.mk d .empty).run changes).history.WF := ((IsKept.empty d).run changes).wf
  refine ⟨fun hn => ?_, fun hn => ?_, fun hd hc => ?_⟩
  · exact ⟨HistoryFile.load_of_isNamed hs hw hn, HistoryFile.loadOrEmpty_of_isNamed hs hw hn⟩
  · exact ⟨HistoryFile.load_of_not_isNamed hs hn, HistoryFile.loadOrEmpty_of_not_isNamed hs hn⟩
  · have hb : (Book.mk d .empty).IsNamed Database.store := ⟨(fun _ he => nomatch he), Database.isNamed_iff.2 hd⟩
    exact (hb.run hc).history

/-- The crowd comes back. -/
theorem load_save_of_crowd : ∃ disk,
    HistoryFile.fresh.save { here := [] } ((Book.mk .fresh .empty).run crowd).history = (.ok (), disk) ∧
    HistoryFile.fresh.loadOrEmpty disk = ((Book.mk .fresh .empty).run crowd).history := by
  obtain ⟨disk, hs, -⟩ := HistoryFile.save_of_isWritable HistoryFile.isWritable_fresh
    ((Book.mk .fresh .empty).run crowd).history
  have h := load_save_of_run .fresh crowd HistoryFile.fresh { here := [] } disk hs
  exact ⟨disk, hs, (h.1 (by decide +kernel)).2⟩

/-- One launch of a configuration that has the empty memento. -/
def nameless : List Change :=
  [.save { passing "" with isTransient := false }, .record ⟨"", .run, "x"⟩]

/-- The launch is remembered and saved, and costs the whole history. -/
theorem load_save_of_nameless : ∃ disk,
    HistoryFile.fresh.save { here := [] } ((Book.mk .fresh .empty).run nameless).history = (.ok (), disk) ∧
    ((Book.mk .fresh .empty).run nameless).history.list .run = [⟨"", .run, "x"⟩] ∧
    HistoryFile.fresh.load disk = .error (.document .noMemento) ∧
    HistoryFile.fresh.loadOrEmpty disk = .empty := by
  obtain ⟨disk, hs, -⟩ := HistoryFile.save_of_isWritable HistoryFile.isWritable_fresh
    ((Book.mk .fresh .empty).run nameless).history
  have hn : ¬((Book.mk .fresh .empty).run nameless).history.IsNamed := by decide +kernel
  exact ⟨disk, hs, by decide +kernel, HistoryFile.load_of_not_isNamed hs hn,
    HistoryFile.loadOrEmpty_of_not_isNamed hs hn⟩

end Book

end RecentLaunches
