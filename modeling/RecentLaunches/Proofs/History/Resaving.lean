/-
The history that a session begins with, and what becomes of it when it is saved without a change. It is what is
begun with the next time, and saving it again does what saving it did: a file that was written is written as it
is, and one that could not be written has nothing behind it that could be read.
-/
import RecentLaunches.Proofs.Disk.Away
import RecentLaunches.Proofs.History.Keeping

namespace RecentLaunches.HistoryFile

variable {σ : Type} {S : Store σ} {s : σ} {f : HistoryFile} {d e m : Disk} {h : History} {W : Location → Prop}
  {r : Except Fault Unit}

/-- The history that a session begins with: the one that is kept, less the launches whose configuration is gone. -/
def begun (f : HistoryFile) (S : Store σ) (s : σ) (d : Disk) : History :=
  (f.loadOrEmpty d).prune S s

theorem sound_begun (f : HistoryFile) (S : Store σ) (s : σ) (d : Disk) : (f.begun S s d).Sound :=
  (sound_loadOrEmpty f d).drop _

theorem isBacked_begun (f : HistoryFile) (S : Store σ) (s : σ) (d : Disk) : (f.begun S s d).IsBacked S s :=
  History.isBacked_prune S s _

/-! ## Saving -/

theorem save_eq (f : HistoryFile) (d : Disk) (h : History) :
    f.save d h = ((d.save f.path (.ofText (Document.render h))).1.mapError .disk,
      (d.save f.path (.ofText (Document.render h))).2) :=
  rfl

theorem save_eq_error_iff {x : Fault} :
    f.save d h = (.error x, m) ↔
      ∃ e, d.save f.path (.ofText (Document.render h)) = (.error e, m) ∧ x = .disk e := by
  rw [save_eq]
  rcases d.save f.path (.ofText (Document.render h)) with ⟨e | _, m'⟩
  · constructor
    · rintro h
      cases h
      exact ⟨e, rfl, rfl⟩
    · rintro ⟨e', h, rfl⟩
      cases h
      rfl
  · constructor
    · intro h
      cases h
    · rintro ⟨e', h, -⟩
      cases h

/-- Where a history cannot be saved, none can be read. -/
theorem loadOrEmpty_of_save_eq_error {e : DiskFault} {c : Content} (hs : d.save f.path c = (.error e, m)) :
    f.loadOrEmpty d = .empty := by
  unfold loadOrEmpty load
  rcases hr : d.readText f.path with x | text
  · cases x <;> rfl
  · obtain ⟨l, hl⟩ := Disk.save_of_readText hr c
    rw [hl] at hs
    cases hs

/-- What a session begins with and saves as it is, is what the next one begins with. If it could be saved it is
saved again in the same place, and if not it cannot be saved again: nothing on the disk changes any more. -/
theorem save_begun (hs : f.save d (f.begun S s d) = (r, m)) :
    f.begun S s m = f.begun S s d ∧ (f.save m (f.begun S s d)).1.isOk = r.isOk ∧
      ∀ x, (f.save m (f.begun S s d)).2.node? x = m.node? x := by
  rcases r with x | ⟨⟩
  · obtain ⟨e, he, rfl⟩ := save_eq_error_iff.1 hs
    obtain ⟨e', hagain⟩ := Disk.save_of_save_eq_error he (.ofText (Document.render (f.begun S s d)))
    rw [save_eq_error_iff.2 ⟨e', hagain, rfl⟩]
    refine ⟨?_, rfl, fun _ => rfl⟩
    unfold begun
    rw [loadOrEmpty_of_save_eq_error hagain, loadOrEmpty_of_save_eq_error he]
  · have hsound := sound_begun f S s d
    obtain ⟨l, hl⟩ := Disk.exists_savedAt (save_eq_ok_iff.1 hs)
    rw [save_eq_ok_iff.2 (hl.again _)]
    refine ⟨?_, rfl, fun x => ?_⟩
    · have hload := loadOrEmpty_of_isNamed hs hsound.wf hsound.named
      have hkept := (isBacked_begun f S s d).prune_eq
      rw [← hload] at hkept ⊢
      exact hkept
    · by_cases hx : x = l
      · rw [hx, Disk.node?_put_self _ _ (Disk.ne_root_of_node? (by rw [hl.node]; simp)), hl.node]
      · exact Disk.node?_put_of_ne _ hx

/-! ## Disks that agree on the way to the file -/

theorem begun_of_agreeOn (ha : Disk.AgreeOn W d e) (hw : ∀ x ∈ Disk.way d.here f.path, W x) :
    f.begun S s e = f.begun S s d := by
  unfold begun loadOrEmpty load
  rw [ha.readText hw]

/-- Saving a history touches nothing but the way to its file, and fails or not by what is there alone. -/
theorem save_of_agreeOn (ha : Disk.AgreeOn W d e) (hw : ∀ x ∈ Disk.way d.here f.path, W x) (h : History) :
    (f.save e h).1 = (f.save d h).1 ∧ Disk.AgreeOn W (f.save d h).2 (f.save e h).2 ∧
      Disk.AgreeOn (fun x => ¬W x) e (f.save e h).2 := by
  have hkeeps : Disk.KeepsTo d.here W (Disk.save · f.path (.ofText (Document.render h))) := Disk.keepsTo_save hw _
  obtain ⟨hresult, hagree⟩ := hkeeps.congr rfl ha
  refine ⟨?_, hagree, hkeeps.frame ha.here⟩
  rw [save_eq, save_eq, hresult]

end RecentLaunches.HistoryFile
