/-
Where paths lead depends on what kinds of things are on the way, not on what files hold. Disks with the
same kinds of things at all places agree on every path, and saving a file does the same to them. A disk
that has more on it leads further, but not every path of a database, which can lead through nothing.
-/
import RecentLaunches.DatabaseFile
import RecentLaunches.Proofs.Disk.Saving

namespace RecentLaunches

/-- Whether it is a directory. -/
def Node.isDirectory : Node → Bool
  | directory => true
  | file _ => false

namespace Disk

variable {d d' d'' : Disk} {l a : Location} {n n' : Node} {p : String} {c c' : Content}

/-! ## Kinds -/

/-- What kind of thing is at a location: whether it is a directory, if there is anything. -/
def kind? (d : Disk) (l : Location) : Option Bool :=
  (d.node? l).map Node.isDirectory

theorem kind?_eq_true : d.kind? l = some true ↔ d.node? l = some .directory := by
  unfold kind?
  rcases d.node? l with _ | _ | c <;> simp [Node.isDirectory]

theorem kind?_eq_false : d.kind? l = some false ↔ ∃ c, d.node? l = some (.file c) := by
  unfold kind?
  rcases d.node? l with _ | _ | c <;> simp [Node.isDirectory]

theorem kind?_eq_none : d.kind? l = none ↔ d.node? l = none := by
  unfold kind?
  rcases d.node? l with _ | _ | c <;> simp

theorem kind?_put (d : Disk) (hl : l ≠ []) (n : Node) (a : Location) :
    (d.put l n).kind? a = if a = l then some n.isDirectory else d.kind? a := by
  unfold kind?
  split_ifs with ha
  · rw [ha, node?_put_self d n hl]
    rfl
  · rw [node?_put_of_ne n ha]

theorem node?_erase_of_ne (h : a ≠ l) : (d.erase l).node? a = d.node? a := by
  unfold node? erase
  split_ifs with ha
  · rfl
  · induction d.nodes with
    | nil => rfl
    | cons x nodes ih =>
      obtain ⟨k, m⟩ := x
      by_cases hk : k = l
      · have hak : (a == k) = false := by rw [hk]; exact beq_eq_false_iff_ne.2 h
        rw [List.filter_cons_of_neg (by simpa using hk), List.lookup_cons, hak]
        exact ih
      · rw [List.filter_cons_of_pos (by simpa using hk), List.lookup_cons, List.lookup_cons]
        cases a == k with
        | true => rfl
        | false => exact ih

/-- Taking away what is not there leaves everything. -/
theorem node?_erase_of_none (hl : d.node? l = none) (a : Location) : (d.erase l).node? a = d.node? a := by
  by_cases ha : a = l
  · have hne : l ≠ [] := by
      rintro rfl
      cases hl
    rw [ha, node?_erase_self d hne, hl]
  · exact node?_erase_of_ne ha

/-! ## Making directories -/

/-- Makes a directory, or finds it. -/
def attempt (d : Disk) (p : String) : Except DiskFault Unit × Disk :=
  match d.makeDir p with
  | .ok d => (.ok (), d)
  | .error e => (if d.isDirectory p then .ok () else .error e, d)

/-- Directories above are made first where they are missing. -/
theorem makeAlong_of_missing (h : d.makeDir p = .error .missing) (above : List String) :
    d.makeAlong (p :: above) =
      match (d.makeAlong above).1 with
      | .error e => (.error e, (d.makeAlong above).2)
      | .ok () => (d.makeAlong above).2.attempt p := by
  rw [makeAlong, h]
  simp only
  rcases d.makeAlong above with ⟨e | ⟨⟩, m⟩ <;> rfl

theorem makeAlong_of_not_missing (h : d.makeDir p ≠ .error .missing) (above : List String) :
    d.makeAlong (p :: above) = d.attempt p := by
  unfold makeAlong attempt
  rcases hm : d.makeDir p with e | m
  · cases e <;> first | rfl | exact absurd hm h
  · rfl

/-! ## Disks of the same kinds -/

/-- Two disks with the same kinds of things at all places. -/
structure Alike (d d' : Disk) : Prop where
  here : d'.here = d.here
  kind : ∀ l, d'.kind? l = d.kind? l

namespace Alike

theorem refl (d : Disk) : d.Alike d :=
  ⟨rfl, fun _ => rfl⟩

theorem symm (h : d.Alike d') : d'.Alike d :=
  ⟨h.here.symm, fun l => (h.kind l).symm⟩

theorem trans (h : d.Alike d') (h' : d'.Alike d'') : d.Alike d'' :=
  ⟨h'.here.trans h.here, fun l => (h'.kind l).trans (h.kind l)⟩

theorem node?_eq_none (h : d.Alike d') : d'.node? l = none ↔ d.node? l = none := by
  rw [← kind?_eq_none, h.kind, kind?_eq_none]

theorem node?_eq_directory (h : d.Alike d') : d'.node? l = some .directory ↔ d.node? l = some .directory := by
  rw [← kind?_eq_true, h.kind, kind?_eq_true]

theorem put (h : d.Alike d') (hl : l ≠ []) (hn : n'.isDirectory = n.isDirectory) :
    (d.put l n).Alike (d'.put l n') := by
  refine ⟨h.here, fun a => ?_⟩
  rw [kind?_put d' hl, kind?_put d hl, hn, h.kind]

/-- A file in the place of a file. -/
theorem put_file (h : d.Alike d') (hf : d.node? l = some (.file c)) (c' : Content) :
    d.Alike (d'.put l (.file c')) := by
  have hl : l ≠ [] := by
    rintro rfl
    cases hf
  refine ⟨h.here, fun a => ?_⟩
  rw [kind?_put d' hl, h.kind]
  split_ifs with ha
  · rw [ha, kind?_eq_false.2 ⟨c, hf⟩]
    rfl
  · rfl

theorem locate (h : d.Alike d') (p : String) (names : List String) : d'.locate p names = d.locate p names := by
  have hfollow : ∀ (names : List String) (o : Location), d'.follow o names = d.follow o names := by
    intro names
    induction names with
    | nil => exact fun _ => rfl
    | cons name rest ih =>
      intro o
      have hk := h.kind o
      unfold kind? at hk
      rw [follow_cons, follow_cons]
      rcases hd : d.node? o with _ | _ | c <;> rcases hd' : d'.node? o with _ | _ | c' <;>
        rw [hd, hd'] at hk <;>
        first | rfl | (cases hk; done) | simp only [ih]
  have ho : d'.origin p = d.origin p := by
    unfold origin
    rw [h.here]
  unfold Disk.locate
  rw [ho, hfollow]

theorem isDirectory (h : d.Alike d') (p : String) : d'.isDirectory p = d.isDirectory p := by
  rw [Bool.eq_iff_iff, isDirectory_iff, isDirectory_iff]
  simp only [h.locate, h.node?_eq_directory]

theorem exists? (h : d.Alike d') (p : String) : d'.exists? p = d.exists? p := by
  unfold Disk.exists? find
  rw [h.locate]
  rcases d.locate p (if Path.isClosed p then Path.steps p ++ ["."] else Path.steps p) with e | a
  · rfl
  · simp only [bind, Except.bind]
    rcases hn : d.node? a with _ | n
    · rw [h.node?_eq_none.2 hn]
    · rcases hn' : d'.node? a with _ | n'
      · rw [h.node?_eq_none.1 hn'] at hn
        cases hn
      · rfl

theorem makeDir (h : d.Alike d') (p : String) :
    (∃ e, d.makeDir p = .error e ∧ d'.makeDir p = .error e) ∨
      ∃ m m', d.makeDir p = .ok m ∧ d'.makeDir p = .ok m' ∧ m.Alike m' := by
  unfold Disk.makeDir
  rw [h.locate]
  rcases d.locate p (Path.steps p) with e | a
  · exact .inl ⟨e, rfl, rfl⟩
  · simp only [bind, Except.bind]
    rcases hn : d.node? a with _ | n
    · rw [h.node?_eq_none.2 hn]
      refine .inr ⟨_, _, rfl, rfl, h.put ?_ rfl⟩
      rintro rfl
      cases hn
    · rcases hn' : d'.node? a with _ | n'
      · rw [h.node?_eq_none.1 hn'] at hn
        cases hn
      · exact .inl ⟨_, rfl, rfl⟩

theorem makeDir_eq_missing (h : d.Alike d') :
    d'.makeDir p = .error .missing ↔ d.makeDir p = .error .missing := by
  rcases h.makeDir p with ⟨e, hm, hm'⟩ | ⟨m, m', hm, hm', -⟩
  · rw [hm, hm']
  · simp [hm, hm']

theorem attempt (h : d.Alike d') (p : String) :
    (d'.attempt p).1 = (d.attempt p).1 ∧ (d.attempt p).2.Alike (d'.attempt p).2 := by
  unfold Disk.attempt
  rcases h.makeDir p with ⟨e, hm, hm'⟩ | ⟨m, m', hm, hm', hmm⟩ <;> rw [hm, hm']
  · simp only [h.isDirectory]
    exact ⟨trivial, h⟩
  · exact ⟨rfl, hmm⟩

/-- Directories are made or found on both disks. -/
theorem makeAlong (h : d.Alike d') (ps : List String) :
    (d'.makeAlong ps).1 = (d.makeAlong ps).1 ∧ (d.makeAlong ps).2.Alike (d'.makeAlong ps).2 := by
  induction ps generalizing d d' with
  | nil => exact ⟨rfl, h⟩
  | cons p above ih =>
    have hmissing := h.makeDir_eq_missing (p := p)
    by_cases hm : d.makeDir p = .error .missing
    · obtain ⟨hr, ha⟩ := ih h
      rw [makeAlong_of_missing hm, makeAlong_of_missing (hmissing.2 hm), hr]
      rcases (d.makeAlong above).1 with e | ⟨⟩
      · exact ⟨rfl, ha⟩
      · exact ha.attempt p
    · rw [makeAlong_of_not_missing hm, makeAlong_of_not_missing (mt hmissing.1 hm)]
      exact h.attempt p

theorem makeAbove (h : d.Alike d') (p : String) :
    (d'.makeAbove p).1 = (d.makeAbove p).1 ∧ (d.makeAbove p).2.Alike (d'.makeAbove p).2 := by
  unfold Disk.makeAbove
  rcases Path.parent? p with _ | above
  · exact ⟨rfl, h⟩
  · exact h.makeAlong _

/-- A file that can be saved on one disk can be saved on the other. -/
theorem save (h : d.Alike d') {m : Disk} (hs : d.save p c = (.ok (), m)) (c' : Content) :
    ∃ m', d'.save p c' = (.ok (), m') ∧ m.Alike m' := by
  obtain ⟨made, hm, hw⟩ := save_eq_ok_iff.1 hs
  obtain ⟨l, hc, hl, hn, rfl⟩ := write_eq_ok_iff.1 hw
  obtain ⟨hr, ha⟩ := h.makeAbove p
  rw [hm] at hr ha
  refine ⟨_, save_eq_ok_iff.2 ⟨(d'.makeAbove p).2, Prod.ext hr rfl, write_eq_ok_iff.2 ⟨l, hc, ?_, ?_, rfl⟩⟩, ?_⟩
  · rw [ha.locate]
    exact hl
  · rw [ne_eq, ha.node?_eq_directory]
    exact hn
  · exact ha.put (ne_root_of_node? hn) rfl

end Alike

/-! ## Disks with more on them -/

/-- A disk has at least the things of another one, and they are of the same kinds. -/
structure Extends (d d' : Disk) : Prop where
  here : d'.here = d.here
  kind : ∀ {l k}, d.kind? l = some k → d'.kind? l = some k

/-- A disk has all that another one has. -/
structure Keeps (d d' : Disk) : Prop where
  here : d'.here = d.here
  node : ∀ {l n}, d.node? l = some n → d'.node? l = some n

theorem Alike.extends (h : d.Alike d') : d.Extends d' :=
  ⟨h.here, fun hk => by rw [h.kind, hk]⟩

theorem Extends.trans (h : d.Extends d') (h' : d'.Extends d'') : d.Extends d'' :=
  ⟨h'.here.trans h.here, fun hk => h'.kind (h.kind hk)⟩

theorem Keeps.refl (d : Disk) : d.Keeps d :=
  ⟨rfl, id⟩

theorem Keeps.trans (h : d.Keeps d') (h' : d'.Keeps d'') : d.Keeps d'' :=
  ⟨h'.here.trans h.here, fun hn => h'.node (h.node hn)⟩

theorem Extends.node?_eq_directory (h : d.Extends d') (a : Location) (ha : d.node? a = some .directory) :
    d'.node? a = some .directory :=
  kind?_eq_true.1 (h.kind (kind?_eq_true.2 ha))

/-- A directory is one on any disk with more on it. -/
theorem Extends.isDirectory (h : d.Extends d') (hd : d.isDirectory p = true) : d'.isDirectory p = true := by
  obtain ⟨l, hl, hn⟩ := isDirectory_iff.1 hd
  exact isDirectory_iff.2 ⟨l, locate_of_directories h.node?_eq_directory h.here hl, h.node?_eq_directory l hn⟩

/-- What is there is there on any disk with more on it. -/
theorem Extends.exists? (h : d.Extends d') (he : d.exists? p = true) : d'.exists? p = true := by
  obtain ⟨l, n, hf⟩ := exists?_iff.1 he
  obtain ⟨hl, hn, hclosed⟩ := find_eq_ok_iff.1 hf
  have hl' := locate_of_directories h.node?_eq_directory h.here hl
  rcases n with _ | c
  · exact exists?_iff.2 ⟨l, .directory, find_eq_ok_iff.2 ⟨hl', h.node?_eq_directory l hn, fun _ => rfl⟩⟩
  · obtain ⟨c', hc'⟩ := kind?_eq_false.1 (h.kind (kind?_eq_false.2 ⟨c, hn⟩))
    exact exists?_iff.2 ⟨l, .file c', find_eq_ok_iff.2 ⟨hl', hc', fun hc => nomatch hclosed hc⟩⟩

theorem Extends.exists?_eq_false (h : d.Extends d') (he : d'.exists? p = false) : d.exists? p = false :=
  Bool.eq_false_iff.2 fun hd => Bool.eq_false_iff.1 he (h.exists? hd)

/-- What is missing on a disk with more on it is missing. -/
theorem Extends.node?_eq_none (h : d.Extends d') (hl : d'.node? l = none) : d.node? l = none := by
  rw [← kind?_eq_none] at hl ⊢
  rcases hk : d.kind? l with _ | k
  · rfl
  · rw [h.kind hk] at hl
    cases hl

/-- Directories that were made are found by the next one who makes them. -/
theorem makeDirs_of_extends {m : Disk} (hm : d.makeDirs p = (.ok (), m)) (h : m.Extends d') :
    d'.makeDirs p = (.ok (), d') := by
  unfold makeDirs at hm ⊢
  rcases hl : Path.lineage p with _ | ⟨q, above⟩
  · rfl
  · rw [hl] at hm
    exact makeAlong_of_isDirectory (h.isDirectory (isDirectory_of_makeAlong hm)) above

theorem Keeps.extends (h : d.Keeps d') : d.Extends d' := by
  refine ⟨h.here, fun hk => ?_⟩
  obtain ⟨n, hn, rfl⟩ := Option.map_eq_some_iff.1 hk
  unfold kind?
  rw [h.node hn]
  rfl

theorem keeps_put (hl : d.node? l = none) (n : Node) : d.Keeps (d.put l n) := by
  refine ⟨rfl, fun {a m} ha => ?_⟩
  rw [node?_put_of_ne n, ha]
  rintro rfl
  rw [hl] at ha
  cases ha

theorem extends_put (hl : l ≠ []) (hk : ∀ k, d.kind? l = some k → k = n.isDirectory) : d.Extends (d.put l n) := by
  refine ⟨rfl, fun {a k} ha => ?_⟩
  rw [kind?_put d hl]
  split_ifs with he
  · rw [he] at ha
    rw [hk k ha]
  · exact ha

theorem keeps_makeDir {m : Disk} (h : d.makeDir p = .ok m) : d.Keeps m := by
  obtain ⟨l, -, hn, rfl⟩ := makeDir_eq_ok_iff.1 h
  exact keeps_put hn _

theorem keeps_attempt (d : Disk) (p : String) : d.Keeps (d.attempt p).2 := by
  unfold attempt
  rcases hm : d.makeDir p with e | m
  · exact .refl d
  · exact keeps_makeDir hm

theorem keeps_makeAlong (d : Disk) (ps : List String) : d.Keeps (d.makeAlong ps).2 := by
  induction ps generalizing d with
  | nil => exact .refl d
  | cons p above ih =>
    by_cases hm : d.makeDir p = .error .missing
    · rw [makeAlong_of_missing hm]
      rcases (d.makeAlong above).1 with e | ⟨⟩
      · exact ih d
      · exact (ih d).trans (keeps_attempt _ p)
    · rw [makeAlong_of_not_missing hm]
      exact keeps_attempt d p

theorem keeps_makeDirs {m : Disk} {r : Except DiskFault Unit} (h : d.makeDirs p = (r, m)) : d.Keeps m := by
  have hkeeps := keeps_makeAlong d (Path.lineage p)
  unfold makeDirs at h
  rwa [h] at hkeeps

theorem keeps_makeAbove (d : Disk) (p : String) : d.Keeps (d.makeAbove p).2 := by
  unfold makeAbove
  rcases Path.parent? p with _ | above
  · exact .refl d
  · exact keeps_makeAlong d _

/-! ## The place of a saved file -/

/-- Where a file was saved, and that nothing else was touched. -/
structure SavedAt (d : Disk) (p : String) (c : Content) (d' : Disk) (l : Location) : Prop where
  isClosed : Path.isClosed p = false
  locate : d'.locate p (Path.steps p) = .ok l
  node : d'.node? l = some (.file c)
  frame : ∀ {a n}, a ≠ l → d.node? a = some n → d'.node? a = some n
  extends_save : d.Extends d'
  /-- The directories above are found again, so that the next file only takes the place of this one. -/
  again : ∀ c', d'.save p c' = (.ok (), d'.put l (.file c'))

theorem exists_savedAt (hs : d.save p c = (.ok (), d')) : ∃ l, d.SavedAt p c d' l := by
  obtain ⟨made, hm, hw⟩ := save_eq_ok_iff.1 hs
  obtain ⟨l, hc, hl, hn, rfl⟩ := write_eq_ok_iff.1 hw
  have hroot := ne_root_of_node? hn
  have hkeeps : d.Keeps made := by
    have h := keeps_makeAbove d p
    rwa [hm] at h
  have hself := node?_put_self made (.file c) hroot
  have hlocate : (made.put l (.file c)).locate p (Path.steps p) = .ok l :=
    locate_of_directories (fun a => node?_put_directory hn) rfl hl
  have hdirectories : ∀ q, made.isDirectory q = true → (made.put l (.file c)).isDirectory q = true := by
    intro q hq
    obtain ⟨a, ha, hd⟩ := isDirectory_iff.1 hq
    exact isDirectory_iff.2 ⟨a, locate_of_directories (fun b => node?_put_directory hn) rfl ha,
      node?_put_directory hn hd⟩
  refine ⟨l, hc, hlocate, hself, fun ha h => ?_, ?_, fun c' => ?_⟩
  · rw [node?_put_of_ne _ ha]
    exact hkeeps.node h
  · refine hkeeps.extends.trans (extends_put hroot fun k hk => ?_)
    cases k with
    | false => rfl
    | true => exact absurd (kind?_eq_true.1 hk) hn
  · refine save_eq_ok_iff.2 ⟨_, makeAbove_of_makeAbove hm hdirectories, write_eq_ok_iff.2 ⟨l, hc, hlocate, ?_, rfl⟩⟩
    rw [hself]
    simp

end Disk

/-! ## The path of a database -/

namespace DatabaseFile

variable {d d' : Disk} {l : Location}

theorem canFollow_of_extends (h : d.Extends d') {name : String} (hf : canFollow d' l name = true) :
    canFollow d l name = true := by
  unfold canFollow at hf ⊢
  rcases hn : d.node? l with _ | _ | c
  · rfl
  · have hk := h.kind (Disk.kind?_eq_true.2 hn)
    rw [Disk.kind?_eq_true.1 hk] at hf
    exact hf
  · obtain ⟨c', hc'⟩ := Disk.kind?_eq_false.1 (h.kind (Disk.kind?_eq_false.2 ⟨c, hn⟩))
    rw [hc'] at hf
    cases hf

/-- Where nothing is, nothing is in the way. -/
theorem simplify_of_extends (h : d.Extends d') {names : List String} {o : Location}
    (hs : simplify d' o names = some l) : simplify d o names = some l := by
  induction names generalizing o with
  | nil => exact hs
  | cons name rest ih =>
    unfold simplify at hs ⊢
    by_cases hdot : name = "."
    · rw [if_pos hdot] at hs ⊢
      exact ih hs
    · rw [if_neg hdot] at hs ⊢
      by_cases hup : name = ".."
      · rw [if_pos hup] at hs ⊢
        exact ih hs
      · rw [if_neg hup] at hs ⊢
        split_ifs at hs with hf
        rw [Bool.and_eq_true] at hf
        rw [if_pos (by rw [canFollow_of_extends h hf.1, hf.2]; rfl)]
        exact ih hs

theorem location?_of_extends (h : d.Extends d') {path : String} (hs : location? d' path = some l) :
    location? d path = some l := by
  have ho : d'.origin path = d.origin path := by
    unfold Disk.origin
    rw [h.here]
  unfold location? at hs ⊢
  rw [ho] at hs
  rcases hl : simplify d' (d.origin path) (Path.steps path) with _ | a
  · rw [hl] at hs
    cases hs
  · rw [hl] at hs
    rw [simplify_of_extends h hl]
    exact hs

end DatabaseFile

end RecentLaunches
