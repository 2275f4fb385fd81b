/-
A database that is opened and not changed. Opening judges what is beside the file, takes away a journal that
tells of something, and uses a log; closing takes the log away. Only the places of the database are touched,
its file is not, and when it is opened again there is nothing left to be taken away.
-/
import RecentLaunches.Proofs.Database.Opening
import RecentLaunches.Proofs.Disk.Away

namespace RecentLaunches

/-! ## The places of a database -/

namespace Companion

variable {c c' : Companion} {l : Location}

theorem at_ne_nil (c : Companion) (l : Location) : c.at l ≠ [] := by
  simp [Companion.at]

theorem at_ne (hl : l ≠ []) (c : Companion) : c.at l ≠ l := by
  obtain ⟨front, last, rfl⟩ := List.eq_nil_or_concat' l |>.resolve_left hl
  intro h
  have hlast : last ++ c.ending = last := by simpa [Companion.at] using h
  have hempty : c.ending = "" := by simpa using hlast
  revert hempty
  cases c <;> decide

theorem at_inj (h : c.at l = c'.at l) : c = c' := by
  have hending : c.ending = c'.ending := by simpa [Companion.at] using h
  cases c <;> cases c' <;> first | rfl | exact absurd hending (by decide)

theorem at_ne_at (h : c ≠ c') : c.at l ≠ c'.at l :=
  fun hl => h (at_inj hl)

end Companion

/-- The places of a database: its file, and the files beside it. -/
def DatabaseFile.places (l : Location) : List Location :=
  l :: [Companion.journal, .log, .index].map (·.at l)

theorem DatabaseFile.mem_places {l x : Location} : x ∈ places l ↔ x = l ∨ ∃ c : Companion, x = c.at l := by
  unfold places
  simp only [List.map_cons, List.map_nil, List.mem_cons, List.not_mem_nil, or_false]
  refine or_congr_right ⟨?_, ?_⟩
  · rintro (h | h | h) <;> exact ⟨_, h⟩
  · rintro ⟨c, h⟩
    cases c
    · exact .inl h
    · exact .inr (.inl h)
    · exact .inr (.inr h)

/-! ## Disks that keep their directories -/

namespace Disk

variable {d d' d'' m : Disk} {l a : Location} {n : Node} {p : String} {isReadOnly : Bool}

/-- A disk has the directories of another one. -/
structure Steady (d d' : Disk) : Prop where
  here : d'.here = d.here
  directory : ∀ {a}, d.node? a = some .directory → d'.node? a = some .directory

theorem Steady.refl (d : Disk) : d.Steady d :=
  ⟨rfl, id⟩

theorem Steady.trans (h : d.Steady d') (h' : d'.Steady d'') : d.Steady d'' :=
  ⟨h'.here.trans h.here, fun ha => h'.directory (h.directory ha)⟩

theorem Extends.steady (h : d.Extends d') : d.Steady d' :=
  ⟨h.here, fun ha => h.node?_eq_directory _ ha⟩

theorem steady_put (hl : d.node? l ≠ some .directory) (n : Node) : d.Steady (d.put l n) :=
  ⟨rfl, node?_put_directory hl⟩

theorem steady_erase (hl : d.node? l ≠ some .directory) : d.Steady (d.erase l) := by
  refine ⟨rfl, fun {a} ha => ?_⟩
  rw [node?_erase_of_ne]
  · exact ha
  · rintro rfl
    exact hl ha

/-- Saving a file keeps the directories, also where it fails. -/
theorem steady_save (d : Disk) (p : String) (c : Content) : d.Steady (d.save p c).2 := by
  have hmade : d.Steady (d.makeAbove p).2 := (keeps_makeAbove d p).extends.steady
  rw [save_eq]
  rcases hm : d.makeAbove p with ⟨e | ⟨⟩, m⟩ <;> rw [hm] at hmade
  · exact hmade
  · simp only
    rcases hw : m.write p c with e | m'
    · exact hmade
    · obtain ⟨l, -, -, hn, rfl⟩ := write_eq_ok_iff.1 hw
      exact hmade.trans (steady_put hn _)

/-- Directories that were made are found on a disk that has kept them. -/
theorem makeDirs_of_steady (hm : d.makeDirs p = (.ok (), m)) (h : m.Steady d') : d'.makeDirs p = (.ok (), d') := by
  unfold makeDirs at hm ⊢
  rcases hl : Path.lineage p with _ | ⟨q, above⟩
  · rfl
  · rw [hl] at hm
    obtain ⟨l, hq, hn⟩ := isDirectory_iff.1 (isDirectory_of_makeAlong hm)
    refine makeAlong_of_isDirectory (isDirectory_iff.2 ⟨l, ?_, h.directory hn⟩) above
    exact locate_of_directories (fun _ => h.directory) h.here hq

/-! ## The files beside a database -/

/-- Whether what is at the place of a journal tells of nothing. -/
def isCold : Option Node → Bool
  | none => true
  | some .directory => false
  | some (.file c) => !c.isHot

/-- Whether what is at the place of a log is no log. -/
def isBlank : Option Node → Bool
  | none => true
  | some .directory => false
  | some (.file c) => c.isEmpty

theorem settleJournal_of_isCold (h : isCold (d.node? (Companion.journal.at l)) = true) (isReadOnly : Bool) :
    d.settleJournal l false isReadOnly = .ok d := by
  unfold settleJournal
  rcases hn : d.node? (Companion.journal.at l) with _ | _ | c <;> rw [hn] at h <;> simp only [hn]
  · cases h
  · have hc : c.isHot = false := by simpa [isCold] using h
    simp [hc]

/-- A journal beside a database that is read tells of nothing any more. -/
theorem settleJournal_eq_ok (h : d.settleJournal l false isReadOnly = .ok m) :
    isCold (m.node? (Companion.journal.at l)) = true ∧ d.Steady m ∧
      AgreeOn (· ≠ Companion.journal.at l) d m := by
  unfold settleJournal at h
  rcases hn : d.node? (Companion.journal.at l) with _ | _ | c <;> simp only [hn] at h
  · cases h
    rw [hn]
    exact ⟨rfl, .refl d, .refl _ d⟩
  · simp at h
  · simp only [Bool.false_eq_true, if_false] at h
    split_ifs at h with hhot
    · cases h
      rw [node?_erase_self d (Companion.at_ne_nil _ _)]
      exact ⟨rfl, steady_erase (by rw [hn]; simp), agreeOn_erase (fun hne => hne rfl)⟩
    · cases h
      rw [hn]
      exact ⟨by simpa [isCold] using hhot, .refl d, .refl _ d⟩

theorem openLog_eq_ok {canShare hasLog : Bool} (h : d.openLog l false canShare = .ok (hasLog, m)) :
    (hasLog = false ∧ m = d ∧ isBlank (d.node? (Companion.log.at l)) = true) ∨
      (hasLog = true ∧ m = d.putIndex l ∧ canShare = true ∧
        ∃ c, d.node? (Companion.log.at l) = some (.file c) ∧ c.isEmpty = false) := by
  unfold openLog at h
  rcases hn : d.node? (Companion.log.at l) with _ | _ | c <;> simp only [hn] at h
  · cases h
    exact .inl ⟨rfl, rfl, rfl⟩
  · cases h
  · simp only [Bool.false_eq_true, if_false] at h
    split_ifs at h with hempty hshare
    · cases h
      exact .inl ⟨rfl, rfl, hempty⟩
    · cases h
      exact .inr ⟨rfl, rfl, hshare, c, rfl, by simpa using hempty⟩

theorem openLog_of_isBlank (h : isBlank (d.node? (Companion.log.at l)) = true) (canShare : Bool) :
    d.openLog l false canShare = .ok (false, d) := by
  unfold openLog
  rcases hn : d.node? (Companion.log.at l) with _ | _ | c <;> rw [hn] at h <;> simp only [hn]
  · cases h
  · have hc : c.isEmpty = true := h
    simp [hc]

theorem openLog_of_file {c : Content} (hn : d.node? (Companion.log.at l) = some (.file c))
    (hc : c.isEmpty = false) : d.openLog l false true = .ok (true, d.putIndex l) := by
  unfold openLog
  simp [hn, hc]

theorem steady_putIndex (d : Disk) (l : Location) : d.Steady (d.putIndex l) := by
  unfold putIndex
  simp only
  split_ifs with h
  · exact .refl d
  · refine steady_put (fun hn => h ?_) _
    unfold isDirectoryAt
    rw [hn]

theorem agreeOn_putIndex (d : Disk) (l : Location) : AgreeOn (· ≠ Companion.index.at l) d (d.putIndex l) := by
  unfold putIndex
  simp only
  split_ifs
  · exact .refl _ d
  · exact agreeOn_put (fun hne => hne rfl) _

theorem isDirectoryAt_iff : d.isDirectoryAt l = true ↔ d.node? l = some .directory := by
  unfold isDirectoryAt
  rcases d.node? l with _ | _ | c <;> simp

theorem putIndex_of_isDirectoryAt (h : d.isDirectoryAt (Companion.index.at l) = true) : d.putIndex l = d := by
  unfold putIndex
  simp only
  rw [if_pos h]

theorem node?_putIndex (h : d.isDirectoryAt (Companion.index.at l) ≠ true) :
    (d.putIndex l).node? (Companion.index.at l) = some (.file (.bytes ⟨#[0xff]⟩)) := by
  unfold putIndex
  simp only
  rw [if_neg h, node?_put_self d _ (Companion.at_ne_nil _ _)]

/-- An index that is there is put again without any change. -/
theorem putIndex_putIndex (h : d'.node? (Companion.index.at l) = (d.putIndex l).node? (Companion.index.at l)) :
    AgreeOn (fun _ => True) d' (d'.putIndex l) := by
  refine ⟨(steady_putIndex d' l).here, fun x _ => ?_⟩
  by_cases hx : x = Companion.index.at l
  · rw [hx]
    by_cases hd' : d'.isDirectoryAt (Companion.index.at l) = true
    · rw [putIndex_of_isDirectoryAt hd']
    · have hd : d.isDirectoryAt (Companion.index.at l) ≠ true := by
        intro hd
        rw [putIndex_of_isDirectoryAt hd, isDirectoryAt_iff.1 hd] at h
        exact hd' (isDirectoryAt_iff.2 h)
      rw [node?_putIndex hd', h, node?_putIndex hd]
  · exact (agreeOn_putIndex d' l).node x hx

end Disk

namespace DatabaseFile

open Disk

variable {f : DatabaseFile} {a : DatabaseAddress} {l : Location} {d e m opened : Disk} {db : Database} {c : Connection}
  {medium : Medium}

/-! ## Databases at rest -/

/-- Where the database of a name is found: what the name stands for, and where that leads. -/
structure FoundAt (f : DatabaseFile) (a : DatabaseAddress) (l : Location) (d : Disk) : Prop where
  address : f.address = .ok a
  isInMemory : a.isInMemory = false
  location : location? d a.path = some l
  model : a.model.any (!d.exists? ·) = false

theorem ne_nil_of_location? {path : String} (h : location? d path = some l) : l ≠ [] := by
  obtain ⟨l', -, hl⟩ := Option.bind_eq_some_iff.1 h
  rintro rfl
  split_ifs at hl with hempty
  cases hl
  simp at hempty

theorem FoundAt.ne_nil (h : f.FoundAt a l d) : l ≠ [] :=
  ne_nil_of_location? h.location

/-- A log that stays when the database is closed: it can only be read, and its index is there. -/
structure HasLog (a : DatabaseAddress) (l : Location) (d : Disk) : Prop where
  system : a.system = .shared
  log : ∃ c, d.node? (Companion.log.at l) = some (.file c) ∧ c.isEmpty = false
  isReadOnly : (a.isReadOnly || d.isDirectoryAt (Companion.index.at l)) = true
  index : AgreeOn (fun _ => True) d (d.putIndex l)

/-- A database as it is left by one who has opened and closed it. -/
structure IsAtRest (a : DatabaseAddress) (l : Location) (d : Disk) (db : Database) : Prop where
  node : d.node? l = some (.file (.database db))
  journal : a.isImmutable = false → isCold (d.node? (Companion.journal.at l)) = true
  log : a.isImmutable = false → isBlank (d.node? (Companion.log.at l)) = true ∨ HasLog a l d

/-- A connection to a database, by what the files beside it come to. -/
def connection (a : DatabaseAddress) (l : Location) (db : Database) (medium : Medium) (d : Disk) : Connection where
  medium := medium
  database := db
  isReadOnly := a.isReadOnly || (medium = .log l && d.isDirectoryAt (Companion.index.at l))
  isWritable := medium = .log l || d.takesJournal l

theorem connect_eq (hf : f.FoundAt a l d) (hn : d.node? l = some (.file (.database db))) :
    f.connect d =
      match settle a l false d with
      | (.error e, opened) => (.error e, opened)
      | (.ok medium, opened) => (.ok (connection a l db medium opened), opened) := by
  have hopenFile : f.openFile a d = .ok (l, .database db, d) := by
    unfold openFile
    simp only [hf.location, hf.model, hn]
    rfl
  have hnew : (Content.database db).isNewDatabase = false := rfl
  unfold DatabaseFile.connect
  simp only [hf.address, hf.isInMemory, hopenFile]
  unfold connectAt
  rw [hnew]
  rcases settle a l false d with ⟨e | medium, opened⟩ <;> rfl

theorem connect_of_settle (hf : f.FoundAt a l d) (hn : d.node? l = some (.file (.database db)))
    (hs : settle a l false d = (.ok medium, opened)) :
    f.connect d = (.ok (connection a l db medium opened), opened) := by
  rw [connect_eq hf hn, hs]

theorem close_of_file (h : c.medium = .file l) (d : Disk) : c.close d = d := by
  unfold Connection.close
  rw [h]

theorem close_of_isReadOnly (h : c.isReadOnly = true) (d : Disk) : c.close d = d := by
  unfold Connection.close
  rw [h]
  split <;> rfl

/-- A database at rest is opened without any change, and nothing is left to do when it is closed. -/
theorem IsAtRest.connect (h : IsAtRest a l d db) (hf : f.FoundAt a l d) :
    ∃ c opened, f.connect d = (.ok c, opened) ∧ c.database = db ∧ c.isChanged = false ∧
      AgreeOn (fun _ => True) d opened ∧ ∀ e, c.close e = e := by
  by_cases himm : a.isImmutable = true
  · have hs : settle a l false d = (.ok (.file l), d) := by
      unfold settle
      rw [if_pos himm]
    exact ⟨_, d, connect_of_settle hf h.node hs, rfl, rfl, .refl _ d, fun e => close_of_file rfl e⟩
  · have hj := settleJournal_of_isCold (h.journal (by simpa using himm)) a.isReadOnly
    rcases h.log (by simpa using himm) with hblank | hlog
    · have hs : settle a l false d = (.ok (.file l), d) := by
        unfold settle
        rw [if_neg himm, hj]
        simp only [openLog_of_isBlank hblank]
        rfl
      exact ⟨_, d, connect_of_settle hf h.node hs, rfl, rfl, .refl _ d, fun e => close_of_file rfl e⟩
    · have hs : settle a l false d = (.ok (.log l), d.putIndex l) := by
        obtain ⟨c, hc, hne⟩ := hlog.log
        unfold settle
        rw [if_neg himm, hj]
        simp only [hlog.system, decide_true, openLog_of_file hc hne]
        rfl
      refine ⟨_, d.putIndex l, connect_of_settle hf h.node hs, rfl, rfl, hlog.index, fun e => ?_⟩
      refine close_of_isReadOnly ?_ e
      have hindex : (d.putIndex l).isDirectoryAt (Companion.index.at l) = d.isDirectoryAt (Companion.index.at l) := by
        unfold isDirectoryAt
        rw [hlog.index.node _ trivial]
      show (a.isReadOnly || (decide (Medium.log l = .log l) && _)) = true
      rw [hindex]
      simpa using hlog.isReadOnly

/-! ## Opening and closing -/

/-- What the files beside a database come to: its file is used, or its log. -/
theorem settle_eq_ok (h : settle a l false d = (.ok medium, opened)) :
    (a.isImmutable = true ∧ medium = .file l ∧ opened = d) ∨
      ∃ m, isCold (m.node? (Companion.journal.at l)) = true ∧ d.Steady m ∧
        AgreeOn (· ≠ Companion.journal.at l) d m ∧
        ((medium = .file l ∧ opened = m ∧ isBlank (m.node? (Companion.log.at l)) = true) ∨
          (medium = .log l ∧ opened = m.putIndex l ∧ a.system = .shared ∧
            ∃ c, m.node? (Companion.log.at l) = some (.file c) ∧ c.isEmpty = false)) := by
  unfold settle at h
  split_ifs at h with himm
  · cases h
    exact .inl ⟨himm, rfl, rfl⟩
  right
  rcases hj : d.settleJournal l false a.isReadOnly with e | m <;> simp only [hj] at h
  · cases h
  obtain ⟨hcold, hsteady, hagree⟩ := settleJournal_eq_ok hj
  refine ⟨m, hcold, hsteady, hagree, ?_⟩
  rcases hl : m.openLog l false (a.system = .shared) with e | ⟨hasLog, m'⟩ <;> simp only [hl] at h
  · cases h
  rcases openLog_eq_ok hl with ⟨rfl, rfl, hblank⟩ | ⟨rfl, rfl, hshare, hlog⟩
  · cases h
    exact .inl ⟨rfl, rfl, hblank⟩
  · cases h
    exact .inr ⟨rfl, rfl, by simpa using hshare, hlog⟩

theorem at_mem_places (k : Companion) : k.at l ∈ places l :=
  mem_places.2 (.inr ⟨k, rfl⟩)

theorem notMem_places {x : Location} (h : x ∉ places l) (k : Companion) : x ≠ k.at l :=
  fun hx => h (mem_places.2 (.inr ⟨k, hx⟩))

theorem isDirectoryAt_of_node?_eq {x : Location} (h : e.node? x = d.node? x) :
    e.isDirectoryAt x = d.isDirectoryAt x := by
  unfold isDirectoryAt
  rw [h]

/-- Taking a log away that is a file, with an index that is none or a file. -/
theorem eraseLog_spec (hlog : ∃ c, e.node? (Companion.log.at l) = some (.file c))
    (hindex : e.isDirectoryAt (Companion.index.at l) = false) :
    e.Steady (e.eraseLog l) ∧ AgreeOn (fun x => x ≠ Companion.log.at l ∧ x ≠ Companion.index.at l) e (e.eraseLog l) ∧
      (e.eraseLog l).node? (Companion.log.at l) = none := by
  obtain ⟨content, hlog⟩ := hlog
  have hne : Companion.log.at l ≠ Companion.index.at l := Companion.at_ne_at nofun
  have hlast : (e.erase (Companion.log.at l)).node? (Companion.index.at l) ≠ some .directory := by
    rw [node?_erase_of_ne hne.symm]
    intro h
    rw [isDirectoryAt_iff.2 h] at hindex
    cases hindex
  unfold eraseLog
  refine ⟨(steady_erase (by rw [hlog]; simp)).trans (steady_erase hlast), ?_, ?_⟩
  · exact (agreeOn_erase fun h => h.1 rfl).trans (agreeOn_erase fun h => h.2 rfl)
  · rw [node?_erase_of_ne hne]
    exact node?_erase_self e (Companion.at_ne_nil _ _)

/-- Closing a database leaves the directories and all that is not at its places, and the database at rest. -/
structure Closes (a : DatabaseAddress) (l : Location) (db : Database) (e e' : Disk) : Prop where
  steady : e.Steady e'
  frame : AgreeOn (· ∉ places l) e e'
  isAtRest : IsAtRest a l e' db

theorem IsAtRest.closes (h : IsAtRest a l e db) : Closes a l db e e :=
  ⟨.refl e, .refl _ e, h⟩

/-- A log that can only be read stays with its index, and any other one is taken away. -/
theorem closes_log (hne : l ≠ []) (hshared : a.system = .shared)
    (hfile : m.node? l = some (.file (.database db))) (hcold : isCold (m.node? (Companion.journal.at l)) = true)
    (hlog : ∃ c, m.node? (Companion.log.at l) = some (.file c) ∧ c.isEmpty = false)
    (he : AgreeOn (· ∈ places l) (m.putIndex l) e) :
    Closes a l db e ((connection a l db (.log l) (m.putIndex l)).close e) := by
  obtain ⟨content, hlog, hcontent⟩ := hlog
  have hnear : ∀ x ∈ places l, x ≠ Companion.index.at l → e.node? x = m.node? x :=
    fun x hx hxi => (he.node x hx).trans ((agreeOn_putIndex m l).node x hxi)
  have hfile' : e.node? l = some (.file (.database db)) :=
    (hnear l (mem_places.2 (.inl rfl)) (Companion.at_ne hne .index).symm).trans hfile
  have hcold' : isCold (e.node? (Companion.journal.at l)) = true := by
    rw [hnear _ (at_mem_places .journal) (Companion.at_ne_at nofun)]
    exact hcold
  have hlog' : e.node? (Companion.log.at l) = some (.file content) :=
    (hnear _ (at_mem_places .log) (Companion.at_ne_at nofun)).trans hlog
  have hdirectory := isDirectoryAt_of_node?_eq (he.node _ (at_mem_places .index))
  by_cases hread : (connection a l db (.log l) (m.putIndex l)).isReadOnly = true
  · -- the next one finds the log again, with an index that it need not make
    rw [close_of_isReadOnly hread]
    refine IsAtRest.closes ⟨hfile', fun _ => hcold', fun _ => .inr ⟨hshared, ⟨content, hlog', hcontent⟩, ?_, ?_⟩⟩
    · rw [hdirectory]
      simpa [connection] using hread
    · exact putIndex_putIndex (he.node _ (at_mem_places .index))
  · have hclose : (connection a l db (.log l) (m.putIndex l)).close e = e.eraseLog l := by
      unfold Connection.close
      simp only [Bool.not_eq_true] at hread
      rw [hread]
      rfl
    have hnone : e.isDirectoryAt (Companion.index.at l) = false := by
      rw [hdirectory]
      simp only [connection, decide_true, Bool.true_and, Bool.or_eq_true, not_or, Bool.not_eq_true] at hread
      exact hread.2
    obtain ⟨hkept, hrest, hgone⟩ := eraseLog_spec ⟨content, hlog'⟩ hnone
    rw [hclose]
    refine ⟨hkept, hrest.mono fun x hx => ⟨notMem_places hx .log, notMem_places hx .index⟩, ?_, fun _ => ?_,
      fun _ => .inl ?_⟩
    · exact (hrest.node l ⟨(Companion.at_ne hne .log).symm, (Companion.at_ne hne .index).symm⟩).trans hfile'
    · rw [hrest.node (Companion.journal.at l) ⟨Companion.at_ne_at nofun, Companion.at_ne_at nofun⟩]
      exact hcold'
    · rw [hgone]
      rfl

/-- Opening and closing a database that is not changed. Its own file is left alone, and what else changes does so
at its places; whatever is done elsewhere in between, the database is at rest in the end. -/
theorem connect_close (hf : f.FoundAt a l d) (hn : d.node? l = some (.file (.database db)))
    (hc : f.connect d = (.ok c, opened)) :
    c.database = db ∧ c.isChanged = false ∧ d.Steady opened ∧
      ∀ e, AgreeOn (· ∈ places l) opened e → Closes a l db e (c.close e) := by
  have hne := hf.ne_nil
  rw [connect_eq hf hn] at hc
  rcases hs : settle a l false d with ⟨err | medium, opened'⟩ <;> rw [hs] at hc <;> cases hc
  rcases settle_eq_ok hs with ⟨himm, rfl, rfl⟩ | ⟨m, hcold, hsteady, hagree, hmedium⟩
  · -- what is beside an immutable file is never looked at
    have hmutable : a.isImmutable ≠ false := by simp [himm]
    refine ⟨rfl, rfl, .refl _, fun e he => ?_⟩
    rw [close_of_file rfl]
    exact IsAtRest.closes
      ⟨(he.node l (mem_places.2 (.inl rfl))).trans hn, fun h => absurd h hmutable, fun h => absurd h hmutable⟩
  have hfile : m.node? l = some (.file (.database db)) :=
    (hagree.node l (Companion.at_ne hne .journal).symm).trans hn
  rcases hmedium with ⟨rfl, rfl, hblank⟩ | ⟨rfl, rfl, hshared, hlog⟩
  · refine ⟨rfl, rfl, hsteady, fun e he => ?_⟩
    rw [close_of_file rfl]
    refine IsAtRest.closes ⟨(he.node l (mem_places.2 (.inl rfl))).trans hfile, fun _ => ?_, fun _ => .inl ?_⟩
    · rw [he.node _ (at_mem_places .journal)]
      exact hcold
    · rw [he.node _ (at_mem_places .log)]
      exact hblank
  · exact ⟨rfl, rfl, hsteady.trans (steady_putIndex m l), fun e he => closes_log hne hshared hfile hcold hlog he⟩

end DatabaseFile

end RecentLaunches
