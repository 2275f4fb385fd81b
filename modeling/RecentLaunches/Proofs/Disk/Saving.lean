/-
What saving a file leads to. A path is followed through directories only, so a file put where no
directory is changes no way through the disk. What was saved is read again; and where one file could be
saved, any other can be saved in its place, before and after.
-/
import RecentLaunches.Disk
import Mathlib.Tactic

namespace RecentLaunches.Disk

variable {d d' : Disk} {l : Location} {p : String} {c : Content}

/-! ## Locations -/

theorem node?_put_of_ne {a : Location} (n : Node) (h : a ≠ l) : (d.put l n).node? a = d.node? a := by
  unfold node? put
  split_ifs with ha
  · rfl
  · have hb : (a == l) = false := beq_eq_false_iff_ne.2 h
    rw [List.lookup_cons, hb]
    induction d.nodes with
    | nil => rfl
    | cons x nodes ih =>
      obtain ⟨k, m⟩ := x
      by_cases hk : k = l
      · have hak : (a == k) = false := by rw [hk]; exact hb
        rw [List.filter_cons_of_neg (by simpa using hk), List.lookup_cons, hak]
        exact ih
      · rw [List.filter_cons_of_pos (by simpa using hk), List.lookup_cons, List.lookup_cons]
        cases a == k with
        | true => rfl
        | false => exact ih

/-- The root is a directory wherever something else is put. -/
theorem ne_root_of_node? (h : d.node? l ≠ some .directory) : l ≠ [] := by
  rintro rfl
  exact h rfl

/-! ## Following a path -/

theorem follow_cons (d : Disk) (o : Location) (name : String) (rest : List String) :
    d.follow o (name :: rest) =
      match d.node? o with
      | none => .error .missing
      | some (.file _) => .error .notDirectory
      | some .directory =>
        if name = "." then d.follow o rest
        else if name = ".." then d.follow o.dropLast rest
        else if nameLimit < name.utf8ByteSize then .error .nameTooLong
        else d.follow (o ++ [name]) rest := by
  rcases hn : d.node? o with _ | _ | c <;> simp only [follow, hn]

/-- A way through directories is a way through any disk that has them too. -/
theorem follow_of_directories (h : ∀ a, d.node? a = some .directory → d'.node? a = some .directory) :
    ∀ {names : List String} {o r : Location}, d.follow o names = .ok r → d'.follow o names = .ok r
  | [], _, _, hf => hf
  | name :: rest, o, r, hf => by
    have ih := @follow_of_directories h rest
    rw [follow_cons] at hf ⊢
    rcases hn : d.node? o with _ | _ | c <;> rw [hn] at hf
    · cases hf
    · rw [h o hn]
      simp only at hf ⊢
      split_ifs at hf ⊢
      · exact ih hf
      · exact ih hf
      · exact ih hf
    · cases hf

theorem follow_append (d : Disk) : ∀ (a b : List String) (o : Location),
    d.follow o (a ++ b) = (d.follow o a).bind fun r => d.follow r b
  | [], _, _ => rfl
  | name :: a, b, o => by
    have ih := follow_append d a b
    rw [List.cons_append, follow_cons, follow_cons]
    rcases d.node? o with _ | _ | c
    · rfl
    · simp only
      split_ifs
      · exact ih _
      · exact ih _
      · rfl
      · exact ih _
    · rfl

/-- Going on to where one is takes a directory. -/
theorem follow_dot (d : Disk) (o : Location) :
    d.follow o ["."] = .ok l ↔ o = l ∧ d.node? o = some .directory := by
  unfold follow
  rcases d.node? o with _ | _ | c
  · simp
  · simp [follow]
  · simp

theorem locate_of_directories (h : ∀ a, d.node? a = some .directory → d'.node? a = some .directory)
    (hh : d'.here = d.here) {names : List String} (hl : d.locate p names = .ok l) :
    d'.locate p names = .ok l := by
  unfold locate at hl ⊢
  split_ifs at hl ⊢
  have ho : d'.origin p = d.origin p := by
    unfold origin
    rw [hh]
  rw [ho]
  exact follow_of_directories h hl

theorem locate_dot (d : Disk) (p : String) (names : List String) (l : Location) :
    d.locate p (names ++ ["."]) = .ok l ↔ d.locate p names = .ok l ∧ d.node? l = some .directory := by
  unfold locate
  split_ifs
  · simp
  · simp
  · simp
  rw [follow_append]
  rcases d.follow (d.origin p) names with e | a
  · exact ⟨(fun h => by cases h), fun h => by cases h.1⟩
  show d.follow a ["."] = .ok l ↔ _
  rw [follow_dot]
  constructor
  · rintro ⟨rfl, h⟩
    exact ⟨rfl, h⟩
  · rintro ⟨h1, h2⟩
    cases h1
    exact ⟨rfl, h2⟩

/-- What a path leads to lies where its names lead; behind a closing slash there is a directory. -/
theorem find_eq_ok_iff {n : Node} :
    d.find p = .ok (l, n) ↔ d.locate p (Path.steps p) = .ok l ∧ d.node? l = some n ∧
      (Path.isClosed p = true → n = .directory) := by
  have hfind : d.find p = .ok (l, n) ↔
      d.locate p (if Path.isClosed p then Path.steps p ++ ["."] else Path.steps p) = .ok l ∧
        d.node? l = some n := by
    unfold find
    rcases d.locate p (if Path.isClosed p then Path.steps p ++ ["."] else Path.steps p) with e | a
    · exact ⟨(fun h => by cases h), fun h => by cases h.1⟩
    simp only [bind, Except.bind]
    rcases ha : d.node? a with _ | m
    · refine ⟨(fun h => by cases h), ?_⟩
      rintro ⟨h1, h2⟩
      cases h1
      rw [ha] at h2
      cases h2
    · constructor
      · intro h
        cases h
        exact ⟨rfl, ha⟩
      · rintro ⟨h1, h2⟩
        cases h1
        rw [ha] at h2
        cases h2
        rfl
  rw [hfind]
  split_ifs with hc
  · rw [locate_dot]
    constructor
    · rintro ⟨⟨h1, h2⟩, h3⟩
      refine ⟨h1, h3, fun _ => ?_⟩
      rw [h2] at h3
      cases h3
      rfl
    · rintro ⟨h1, h2, h3⟩
      rw [h3 hc] at h2 ⊢
      exact ⟨⟨h1, h2⟩, h2⟩
  · exact ⟨fun h => ⟨h.1, h.2, fun hc' => absurd hc' hc⟩, fun h => ⟨h.1, h.2.1⟩⟩

theorem exists?_iff : d.exists? p = true ↔ ∃ l n, d.find p = .ok (l, n) := by
  unfold exists?
  rcases d.find p with e | ⟨l, n⟩
  · exact iff_of_false (by simp) (by simp)
  · exact iff_of_true rfl ⟨l, n, rfl⟩

theorem isDirectory_iff :
    d.isDirectory p = true ↔ ∃ l, d.locate p (Path.steps p) = .ok l ∧ d.node? l = some .directory := by
  unfold isDirectory
  rcases hf : d.find p with e | ⟨l, n⟩
  · refine ⟨(fun h => by cases h), ?_⟩
    rintro ⟨l, h1, h2⟩
    rw [find_eq_ok_iff.2 ⟨h1, h2, fun _ => rfl⟩] at hf
    cases hf
  · obtain ⟨h1, h2, -⟩ := find_eq_ok_iff.1 hf
    constructor
    · intro h
      cases n with
      | directory => exact ⟨l, h1, h2⟩
      | file c => cases h
    · rintro ⟨a, h3, h4⟩
      rw [h1] at h3
      cases h3
      rw [h2] at h4
      cases h4
      rfl

/-! ## Making directories -/

/-- Putting something where no directory is takes no directory away. -/
theorem node?_put_directory {n : Node} (hl : d.node? l ≠ some .directory) {a : Location}
    (ha : d.node? a = some .directory) : (d.put l n).node? a = some .directory := by
  have hne : a ≠ l := by
    rintro rfl
    exact hl ha
  rw [node?_put_of_ne n hne]
  exact ha

theorem makeDir_eq_ok_iff :
    d.makeDir p = .ok d' ↔
      ∃ l, d.locate p (Path.steps p) = .ok l ∧ d.node? l = none ∧ d' = d.put l .directory := by
  unfold makeDir
  rcases d.locate p (Path.steps p) with e | a
  · refine ⟨(fun h => by cases h), ?_⟩
    rintro ⟨l, h, -⟩
    cases h
  simp only [bind, Except.bind]
  rcases ha : d.node? a with _ | n
  · constructor
    · intro h
      cases h
      exact ⟨a, rfl, ha, rfl⟩
    · rintro ⟨l, h, -, rfl⟩
      cases h
      rfl
  · refine ⟨(fun h => by cases h), ?_⟩
    rintro ⟨l, h, h', -⟩
    cases h
    rw [ha] at h'
    cases h'

theorem isDirectory_of_makeDir (h : d.makeDir p = .ok d') : d'.isDirectory p = true := by
  obtain ⟨l, hl, hn, rfl⟩ := makeDir_eq_ok_iff.1 h
  have hne : d.node? l ≠ some .directory := by
    rw [hn]
    intro h
    cases h
  rw [isDirectory_iff]
  exact ⟨l, locate_of_directories (fun a => node?_put_directory hne) rfl hl,
    node?_put_self d _ (ne_root_of_node? hne)⟩

theorem makeDir_of_isDirectory (h : d.isDirectory p = true) : d.makeDir p = .error .present := by
  obtain ⟨l, hl, hn⟩ := isDirectory_iff.1 h
  unfold makeDir
  rw [hl]
  simp only [bind, Except.bind, hn]
  rfl

/-- A directory that was made along with those above it is there. -/
theorem isDirectory_of_makeAlong {above : List String}
    (h : d.makeAlong (p :: above) = (.ok (), d')) : d'.isDirectory p = true := by
  -- where the directory could not be made, it was asked whether it is there
  have checked : ∀ {d : Disk} {e : DiskFault},
      ((if d.isDirectory p then .ok () else .error e : Except DiskFault Unit), d) = (.ok (), d') →
      d'.isDirectory p = true := by
    intro d e h
    split_ifs at h with hd
    · cases h
      exact hd
    · cases h
  unfold makeAlong at h
  split at h
  · rename_i hm
    cases h
    exact isDirectory_of_makeDir hm
  · split at h
    · cases h
    · split at h
      · rename_i hm
        cases h
        exact isDirectory_of_makeDir hm
      · exact checked h
  · exact checked h

theorem makeAlong_of_isDirectory (h : d.isDirectory p = true) (above : List String) :
    d.makeAlong (p :: above) = (.ok (), d) := by
  unfold makeAlong
  rw [makeDir_of_isDirectory h]
  simp only
  rw [if_pos h]

/-! ## Writing -/

theorem write_eq_ok_iff :
    d.write p c = .ok d' ↔ ∃ l, Path.isClosed p = false ∧ d.locate p (Path.steps p) = .ok l ∧
      d.node? l ≠ some .directory ∧ d' = d.put l (.file c) := by
  unfold write
  split_ifs with hc
  · constructor
    · intro h
      rcases hl : d.locate p ((Path.steps p).dropLast ++ ["."]) with e | a <;> rw [hl] at h <;> cases h
    · rintro ⟨l, h, -⟩
      rw [hc] at h
      cases h
  rcases d.locate p (Path.steps p) with e | a
  · refine ⟨(fun h => by cases h), ?_⟩
    rintro ⟨l, -, h, -⟩
    cases h
  simp only [bind, Except.bind]
  split
  · rename_i ha
    refine ⟨(fun h => by cases h), ?_⟩
    rintro ⟨l, -, h, h', -⟩
    cases h
    exact absurd ha h'
  · rename_i ha
    constructor
    · intro h
      cases h
      exact ⟨a, by simpa using hc, rfl, ha, rfl⟩
    · rintro ⟨l, -, h, -, rfl⟩
      cases h
      rfl

/-- The text of a file is read by a path that leads to it. -/
theorem readText_of_node {text : String} (hc : Path.isClosed p = false) (hl : d.locate p (Path.steps p) = .ok l)
    (hn : d.node? l = some (.file (.ofText text))) : d.readText p = .ok text := by
  have hfind : d.find p = .ok (l, .file (.ofText text)) := by
    rw [find_eq_ok_iff]
    refine ⟨hl, hn, fun h => ?_⟩
    rw [hc] at h
    cases h
  unfold readText
  rw [hfind]
  simp only [bind, Except.bind, Content.text?_ofText]
  rfl

/-- A text that was written to a path is read from it. -/
theorem readText_of_write {text : String} (h : d.write p (.ofText text) = .ok d') :
    d'.readText p = .ok text := by
  obtain ⟨l, hc, hl, hn, rfl⟩ := write_eq_ok_iff.1 h
  exact readText_of_node hc (locate_of_directories (fun a => node?_put_directory hn) rfl hl)
    (node?_put_self d _ (ne_root_of_node? hn))

/-- Where one file was written another can be written in its place. -/
theorem write_of_write (h : d.write p c = .ok d') (c' : Content) : ∃ d'', d'.write p c' = .ok d'' := by
  obtain ⟨l, hc, hl, hn, rfl⟩ := write_eq_ok_iff.1 h
  refine ⟨_, write_eq_ok_iff.2 ⟨l, hc, locate_of_directories (fun a => node?_put_directory hn) rfl hl, ?_, rfl⟩⟩
  rw [node?_put_self d _ (ne_root_of_node? hn)]
  intro h
  cases h

/-! ## Saving -/

/-- Makes the directories above a path. -/
def makeAbove (d : Disk) (p : String) : Except DiskFault Unit × Disk :=
  match Path.parent? p with
  | some above => d.makeDirs above
  | none => (.ok (), d)

theorem save_eq_ok_iff :
    d.save p c = (.ok (), d') ↔ ∃ made, d.makeAbove p = (.ok (), made) ∧ made.write p c = .ok d' := by
  unfold save makeAbove
  rcases Path.parent? p with _ | above
  · rcases hw : d.write p c with e | d'' <;> simp [hw]
  · rcases hm : d.makeDirs above with ⟨_ | _, made⟩
    · simp [hm]
    · rcases hw : made.write p c with e | d'' <;> simp [hm, hw]

/-- A text that was saved is read again. -/
theorem readText_of_save {text : String} (h : d.save p (.ofText text) = (.ok (), d')) :
    d'.readText p = .ok text := by
  obtain ⟨made, -, hw⟩ := save_eq_ok_iff.1 h
  exact readText_of_write hw

/-- Directories above a path that were made are found by the next one who makes them. -/
theorem makeAbove_of_makeAbove {made : Disk} (h : d.makeAbove p = (.ok (), made))
    (hd : ∀ q, made.isDirectory q = true → d'.isDirectory q = true) :
    d'.makeAbove p = (.ok (), d') := by
  unfold makeAbove at h ⊢
  rcases hp : Path.parent? p with _ | above
  · rfl
  · rw [hp] at h
    simp only [makeDirs] at h ⊢
    rcases hl : Path.lineage above with _ | ⟨q, rest⟩
    · rfl
    · rw [hl] at h
      exact makeAlong_of_isDirectory (hd q (isDirectory_of_makeAlong h)) rest

/-- Whether some file can be saved at a path. -/
def IsWritable (d : Disk) (p : String) : Prop :=
  ∃ c d', d.save p c = (.ok (), d')

/-- Where some file can be saved, any file can be, and then any other. -/
theorem IsWritable.save (h : d.IsWritable p) (c : Content) :
    ∃ d', d.save p c = (.ok (), d') ∧ d'.IsWritable p := by
  obtain ⟨c₀, d₀, h₀⟩ := h
  obtain ⟨made, hm, hw⟩ := save_eq_ok_iff.1 h₀
  obtain ⟨l, hc, hl, hn, -⟩ := write_eq_ok_iff.1 hw
  have hsaved : made.write p c = .ok (made.put l (.file c)) :=
    write_eq_ok_iff.2 ⟨l, hc, hl, hn, rfl⟩
  refine ⟨made.put l (.file c), save_eq_ok_iff.2 ⟨made, hm, hsaved⟩, c, ?_⟩
  -- the directories are there already, and the file gives way
  have hkept : ∀ q, made.isDirectory q = true → (made.put l (.file c)).isDirectory q = true := by
    intro q hq
    obtain ⟨a, ha, hd⟩ := isDirectory_iff.1 hq
    exact isDirectory_iff.2 ⟨a, locate_of_directories (fun b => node?_put_directory hn) rfl ha,
      node?_put_directory hn hd⟩
  obtain ⟨d'', hagain⟩ := write_of_write hsaved c
  exact ⟨d'', save_eq_ok_iff.2 ⟨_, makeAbove_of_makeAbove hm hkept, hagain⟩⟩

end RecentLaunches.Disk
