/-
The places that a path leads through, and operations that keep to some places: what they do depends on what
is there alone, and they change nothing elsewhere. Saving a file keeps to the places that its path leads
through, so disks that agree on these do alike, and nothing else is touched.
-/
import RecentLaunches.Proofs.Disk.Lineage

namespace RecentLaunches.Disk

variable {d d' d'' : Disk} {base : Location} {l : Location} {p q : String} {n : Node} {W V : Location → Prop}

/-! ## Disks that agree on some places -/

/-- Two disks have the same at some places. -/
structure AgreeOn (W : Location → Prop) (d d' : Disk) : Prop where
  here : d'.here = d.here
  node : ∀ x, W x → d'.node? x = d.node? x

theorem AgreeOn.refl (W : Location → Prop) (d : Disk) : AgreeOn W d d :=
  ⟨rfl, fun _ _ => rfl⟩

theorem AgreeOn.trans (h : AgreeOn W d d') (h' : AgreeOn W d' d'') : AgreeOn W d d'' :=
  ⟨h'.here.trans h.here, fun x hx => (h'.node x hx).trans (h.node x hx)⟩

theorem AgreeOn.mono (h : AgreeOn W d d') (hv : ∀ x, V x → W x) : AgreeOn V d d' :=
  ⟨h.here, fun x hx => h.node x (hv x hx)⟩

theorem AgreeOn.put (h : AgreeOn W d d') (hl : l ≠ []) (n : Node) : AgreeOn W (d.put l n) (d'.put l n) := by
  refine ⟨h.here, fun x hx => ?_⟩
  by_cases hxl : x = l
  · rw [hxl, node?_put_self d' n hl, node?_put_self d n hl]
  · rw [node?_put_of_ne n hxl, node?_put_of_ne n hxl]
    exact h.node x hx

theorem agreeOn_put (hl : ¬W l) (n : Node) : AgreeOn W d (d.put l n) :=
  ⟨rfl, fun _ hx => node?_put_of_ne n fun he => hl (he ▸ hx)⟩

theorem agreeOn_erase (hl : ¬W l) : AgreeOn W d (d.erase l) :=
  ⟨rfl, fun _ hx => node?_erase_of_ne fun he => hl (he ▸ hx)⟩

/-! ## The way of a path -/

/-- The places where names are looked up from a location on, and where they lead. -/
def visited : Location → List String → List Location
  | l, [] => [l]
  | l, name :: rest =>
    l :: if name = "." then visited l rest
      else if name = ".." then visited l.dropLast rest
      else visited (l ++ [name]) rest

/-- The places that a path leads through from the directory one is in, with the one it leads to. -/
def way (here : Location) (p : String) : List Location :=
  visited (if Path.isAbsolute p then [] else here) (Path.steps p)

theorem mem_visited_self (l : Location) (names : List String) : l ∈ visited l names := by
  cases names <;> exact List.mem_cons_self ..

theorem visited_append_subset (a b : List String) (l : Location) : ∀ x ∈ visited l a, x ∈ visited l (a ++ b) := by
  induction a generalizing l with
  | nil =>
    intro x hx
    rw [visited, List.mem_singleton] at hx
    rw [hx]
    exact mem_visited_self l _
  | cons name a ih =>
    intro x hx
    rw [List.cons_append, visited, List.mem_cons]
    rw [visited, List.mem_cons] at hx
    rcases hx with rfl | hx
    · exact .inl rfl
    · right
      split_ifs at hx ⊢ <;> exact ih _ x hx

/-- Going on to where one is leads through no other place. -/
theorem visited_dot_subset (names : List String) (l : Location) :
    ∀ x ∈ visited l (names ++ ["."]), x ∈ visited l names := by
  induction names generalizing l with
  | nil =>
    intro x hx
    simp only [List.nil_append, visited, if_pos, List.mem_cons, List.not_mem_nil, or_false, or_self] at hx
    rw [hx]
    exact mem_visited_self l _
  | cons name names ih =>
    intro x hx
    rw [List.cons_append, visited, List.mem_cons] at hx
    rw [visited, List.mem_cons]
    rcases hx with rfl | hx
    · exact .inl rfl
    · right
      split_ifs at hx ⊢ <;> exact ih _ x hx

theorem visited_dropLast_subset (names : List String) (l : Location) :
    ∀ x ∈ visited l names.dropLast, x ∈ visited l names := by
  intro x hx
  rcases List.eq_nil_or_concat' names with rfl | ⟨front, last, rfl⟩
  · exact hx
  · rw [List.dropLast_concat] at hx
    exact visited_append_subset front [last] l x hx

theorem way_subset_of_isAbove (hq : q ≠ "") (h : Path.IsAbove q p) (here : Location) :
    ∀ x ∈ way here q, x ∈ way here p := by
  intro x hx
  have horigin : (if Path.isAbsolute q then [] else here) = if Path.isAbsolute p then [] else here :=
    origin_of_isAbove hq h { here := here }
  obtain ⟨rest, -, hsteps⟩ := h.names
  unfold way at hx ⊢
  rw [horigin] at hx
  rw [hsteps]
  exact visited_append_subset _ _ _ x hx

/-- The paths above a path lead through none but its places. -/
theorem way_subset_of_mem_climb (k : Nat) (here : Location) :
    ∀ r ∈ Path.climb k p, ∀ x ∈ way here r, x ∈ way here p := by
  induction k generalizing p with
  | zero => exact fun _ hr => nomatch hr
  | succ k ih =>
    intro r hr x hx
    unfold Path.climb at hr
    rcases hp : Path.parent? p with _ | q <;> rw [hp] at hr
    · cases hr
    rcases List.mem_cons.1 hr with rfl | hr
    · exact hx
    · rcases Path.isAbove_of_parent? hp with rfl | ⟨hq, habove⟩
      · cases k <;> cases hr
      · exact way_subset_of_isAbove hq habove here x (ih r hr x hx)

/-! ## Following a path -/

theorem mem_visited_of_follow {names : List String} {o : Location} (h : d.follow o names = .ok l) :
    l ∈ visited o names := by
  induction names generalizing o with
  | nil =>
    cases h
    exact mem_visited_self _ _
  | cons name rest ih =>
    have ho := node?_of_follow_cons h
    rw [follow_cons, ho] at h
    simp only at h
    rw [visited, List.mem_cons]
    right
    split_ifs at h ⊢ <;> exact ih h

theorem AgreeOn.follow (h : AgreeOn W d d') {names : List String} {o : Location} (hw : ∀ x ∈ visited o names, W x) :
    d'.follow o names = d.follow o names := by
  induction names generalizing o with
  | nil => rfl
  | cons name rest ih =>
    rw [visited] at hw
    rw [follow_cons, follow_cons, h.node o (hw o (List.mem_cons_self ..))]
    rcases d.node? o with _ | _ | c
    · rfl
    · simp only
      have hrest := fun x hx => hw x (List.mem_cons_of_mem _ hx)
      split_ifs at hrest ⊢
      · exact ih hrest
      · exact ih hrest
      · rfl
      · exact ih hrest
    · rfl

theorem mem_way_of_locate (h : d.locate p (Path.steps p) = .ok l) : l ∈ way d.here p := by
  unfold locate at h
  split_ifs at h
  exact mem_visited_of_follow h

theorem AgreeOn.locate (h : AgreeOn W d d') {names : List String}
    (hw : ∀ x ∈ visited (d.origin p) names, W x) : d'.locate p names = d.locate p names := by
  have horigin : d'.origin p = d.origin p := by
    unfold origin
    rw [h.here]
  unfold Disk.locate
  rw [horigin, h.follow hw]

theorem AgreeOn.locate_steps (h : AgreeOn W d d') (hw : ∀ x ∈ way d.here p, W x) :
    d'.locate p (Path.steps p) = d.locate p (Path.steps p) :=
  h.locate hw

theorem AgreeOn.find (h : AgreeOn W d d') (hw : ∀ x ∈ way d.here p, W x) : d'.find p = d.find p := by
  have hlocate : ∀ names, names = Path.steps p ∨ names = Path.steps p ++ ["."] →
      d'.locate p names = d.locate p names ∧ ∀ l, d.locate p names = .ok l → d'.node? l = d.node? l := by
    intro names hnames
    have hvisited : ∀ x ∈ visited (d.origin p) names, W x := by
      rcases hnames with rfl | rfl
      · exact hw
      · exact fun x hx => hw x (visited_dot_subset _ _ x hx)
    refine ⟨h.locate hvisited, fun l hl => h.node l (hvisited l ?_)⟩
    unfold Disk.locate at hl
    split_ifs at hl
    exact mem_visited_of_follow hl
  obtain ⟨hsame, hnode⟩ := hlocate (if Path.isClosed p then Path.steps p ++ ["."] else Path.steps p)
    (by split_ifs <;> simp)
  unfold Disk.find
  rw [hsame]
  rcases hl : d.locate p (if Path.isClosed p then Path.steps p ++ ["."] else Path.steps p) with e | l
  · rfl
  · simp only [bind, Except.bind]
    rw [hnode l hl]

theorem AgreeOn.isDirectory (h : AgreeOn W d d') (hw : ∀ x ∈ way d.here p, W x) :
    d'.isDirectory p = d.isDirectory p := by
  unfold Disk.isDirectory
  rw [h.find hw]

theorem AgreeOn.readText (h : AgreeOn W d d') (hw : ∀ x ∈ way d.here p, W x) : d'.readText p = d.readText p := by
  unfold Disk.readText
  rw [h.find hw]

/-! ## Operations that keep to some places -/

/-- An operation keeps to some places: what it does depends on what is there alone, and it changes nothing
elsewhere. -/
structure KeepsTo (base : Location) (W : Location → Prop) (op : Disk → Except DiskFault Unit × Disk) : Prop where
  frame : ∀ {d}, d.here = base → AgreeOn (fun x => ¬W x) d (op d).2
  congr : ∀ {d d'}, d.here = base → AgreeOn W d d' → (op d').1 = (op d).1 ∧ AgreeOn W (op d).2 (op d').2

theorem KeepsTo.here {op : Disk → Except DiskFault Unit × Disk} (h : KeepsTo base W op) (hd : d.here = base) :
    (op d).2.here = base :=
  (h.frame hd).here.trans hd

/-- One operation after another, if that goes well. -/
def andThen (first second : Disk → Except DiskFault Unit × Disk) (d : Disk) : Except DiskFault Unit × Disk :=
  match (first d).1 with
  | .error e => (.error e, (first d).2)
  | .ok () => second (first d).2

theorem KeepsTo.andThen {first second : Disk → Except DiskFault Unit × Disk} (h : KeepsTo base W first)
    (h' : KeepsTo base W second) : KeepsTo base W (andThen first second) := by
  constructor
  · intro d hd
    unfold Disk.andThen
    rcases (first d).1 with e | ⟨⟩
    · exact h.frame hd
    · exact (h.frame hd).trans (h'.frame (h.here hd))
  · intro d d' hd ha
    obtain ⟨hr, hm⟩ := h.congr hd ha
    unfold Disk.andThen
    rw [hr]
    rcases (first d).1 with e | ⟨⟩
    · exact ⟨rfl, hm⟩
    · exact h'.congr (h.here hd) hm

/-- An operation that leaves the disk as it is, or puts something at a place: which it is, and where, must not
depend on other places. -/
theorem keepsTo_of_cases {op : Disk → Except DiskFault Unit × Disk}
    (h : ∀ {d d'}, d.here = base → AgreeOn W d d' → (∃ r, op d = (r, d) ∧ op d' = (r, d')) ∨
      ∃ r l n, W l ∧ l ≠ [] ∧ op d = (r, d.put l n) ∧ op d' = (r, d'.put l n)) : KeepsTo base W op := by
  constructor
  · intro d hd
    rcases h hd (.refl W d) with ⟨r, hr, -⟩ | ⟨r, l, n, hl, -, hr, -⟩ <;> rw [hr]
    · exact .refl _ d
    · exact agreeOn_put (fun hn => hn hl) n
  · intro d d' hd ha
    rcases h hd ha with ⟨r, hr, hr'⟩ | ⟨r, l, n, -, hne, hr, hr'⟩ <;> rw [hr, hr']
    · exact ⟨rfl, ha⟩
    · exact ⟨rfl, ha.put hne n⟩

/-! ## Making directories and saving files -/

theorem AgreeOn.makeDir (h : AgreeOn W d d') (hw : ∀ x ∈ way d.here p, W x) :
    (∃ e, d.makeDir p = .error e ∧ d'.makeDir p = .error e) ∨
      ∃ l, W l ∧ l ≠ [] ∧ d.makeDir p = .ok (d.put l .directory) ∧ d'.makeDir p = .ok (d'.put l .directory) := by
  unfold Disk.makeDir
  rw [h.locate_steps hw]
  rcases hl : d.locate p (Path.steps p) with e | l
  · exact .inl ⟨e, rfl, rfl⟩
  · have hway := hw l (mem_way_of_locate hl)
    simp only [bind, Except.bind]
    rw [h.node l hway]
    rcases hn : d.node? l with _ | n
    · refine .inr ⟨l, hway, ?_, rfl, rfl⟩
      rintro rfl
      cases hn
    · exact .inl ⟨_, rfl, rfl⟩

theorem keepsTo_attempt (hw : ∀ x ∈ way base p, W x) : KeepsTo base W (attempt · p) := by
  refine keepsTo_of_cases fun hd ha => ?_
  subst hd
  unfold attempt
  rcases ha.makeDir hw with ⟨e, he, he'⟩ | ⟨l, hl, hne, hm, hm'⟩
  · rw [he, he', ha.isDirectory hw]
    exact .inl ⟨_, rfl, rfl⟩
  · rw [hm, hm']
    exact .inr ⟨_, l, _, hl, hne, rfl, rfl⟩

/-- Making directories, by induction on the paths: those above come first where this one is missing. -/
theorem keepsTo_makeAlong {ps : List String} (hw : ∀ p ∈ ps, ∀ x ∈ way base p, W x) :
    KeepsTo base W (makeAlong · ps) := by
  induction ps with
  | nil => exact ⟨fun _ => .refl _ _, fun _ ha => ⟨rfl, ha⟩⟩
  | cons p above ih =>
    have hp := hw p (List.mem_cons_self ..)
    have habove := ih fun q hq => hw q (List.mem_cons_of_mem _ hq)
    have hseq := habove.andThen (keepsTo_attempt hp)
    have hmissing : ∀ {d : Disk}, d.makeDir p = .error .missing →
        d.makeAlong (p :: above) = andThen (makeAlong · above) (attempt · p) d :=
      fun hm => makeAlong_of_missing hm above
    constructor
    · intro d hd
      by_cases hm : d.makeDir p = .error .missing
      · simp only [hmissing hm]
        exact hseq.frame hd
      · simp only [makeAlong_of_not_missing hm]
        exact (keepsTo_attempt hp).frame hd
    · intro d d' hd ha
      have hsame : d'.makeDir p = .error .missing ↔ d.makeDir p = .error .missing := by
        subst hd
        rcases ha.makeDir hp with ⟨e, he, he'⟩ | ⟨l, -, -, hm, hm'⟩
        · rw [he, he']
        · rw [hm, hm']
          simp
      by_cases hm : d.makeDir p = .error .missing
      · simp only [hmissing hm, hmissing (hsame.2 hm)]
        exact hseq.congr hd ha
      · simp only [makeAlong_of_not_missing hm, makeAlong_of_not_missing (mt hsame.1 hm)]
        exact (keepsTo_attempt hp).congr hd ha

theorem keepsTo_makeAbove (hw : ∀ x ∈ way base p, W x) : KeepsTo base W (makeAbove · p) := by
  unfold makeAbove
  rcases hp : Path.parent? p with _ | q
  · exact ⟨fun _ => .refl _ _, fun _ ha => ⟨rfl, ha⟩⟩
  · refine keepsTo_makeAlong fun r hr x hx => hw x ?_
    rcases Path.isAbove_of_parent? hp with rfl | ⟨hq, habove⟩
    · cases hr
    · exact way_subset_of_isAbove hq habove base x (way_subset_of_mem_climb _ base r hr x hx)

theorem AgreeOn.write (h : AgreeOn W d d') (hw : ∀ x ∈ way d.here p, W x) (c : Content) :
    (∃ e, d.write p c = .error e ∧ d'.write p c = .error e) ∨
      ∃ l, W l ∧ l ≠ [] ∧ d.write p c = .ok (d.put l (.file c)) ∧ d'.write p c = .ok (d'.put l (.file c)) := by
  unfold Disk.write
  split_ifs
  · -- behind a closing slash there is no file to be written
    rw [h.locate fun x hx => hw x (visited_dropLast_subset _ _ x (visited_dot_subset _ _ x hx))]
    rcases d.locate p ((Path.steps p).dropLast ++ ["."]) with e | l <;> exact .inl ⟨_, rfl, rfl⟩
  · rw [h.locate_steps hw]
    rcases hl : d.locate p (Path.steps p) with e | l
    · exact .inl ⟨e, rfl, rfl⟩
    · have hway := hw l (mem_way_of_locate hl)
      simp only [bind, Except.bind]
      rw [h.node l hway]
      rcases hn : d.node? l with _ | _ | content
      · refine .inr ⟨l, hway, ?_, rfl, rfl⟩
        rintro rfl
        cases hn
      · exact .inl ⟨_, rfl, rfl⟩
      · refine .inr ⟨l, hway, ?_, rfl, rfl⟩
        rintro rfl
        cases hn

/-- Writes a file, or leaves the disk as it is where that fails. -/
def tried (p : String) (c : Content) (d : Disk) : Except DiskFault Unit × Disk :=
  match d.write p c with
  | .ok m => (.ok (), m)
  | .error e => (.error e, d)

theorem save_eq_andThen (d : Disk) (p : String) (c : Content) :
    d.save p c = andThen (makeAbove · p) (tried p c) d := by
  rw [save_eq]
  unfold andThen
  simp only
  rcases d.makeAbove p with ⟨e | ⟨⟩, m⟩
  · rfl
  · unfold tried
    rcases hw : m.write p c with e | m' <;> simp only [hw]

/-- Saving a file keeps to the way of its path. -/
theorem keepsTo_save (hw : ∀ x ∈ way base p, W x) (c : Content) : KeepsTo base W (save · p c) := by
  have htried : KeepsTo base W (tried p c) := by
    refine keepsTo_of_cases fun hd ha => ?_
    subst hd
    unfold tried
    rcases ha.write hw c with ⟨e, he, he'⟩ | ⟨l, hl, hne, hm, hm'⟩
    · rw [he, he']
      exact .inl ⟨_, rfl, rfl⟩
    · rw [hm, hm']
      exact .inr ⟨_, l, _, hl, hne, rfl, rfl⟩
  simp only [save_eq_andThen]
  exact (keepsTo_makeAbove hw).andThen htried

end RecentLaunches.Disk
