/-
Listing is oldest first. Rows are listed in the order of the texts that are stored for moments, and of mementos where
these are the same; for configurations of years of four digits the first is the order of their canonical times, and the
second that of bytes. After any operations on a new database that save such configurations only, all that are there are
listed, each after those that were made before it; but a leap second that is not at the end of its minute is listed as
the second that it is stored like, and may so come after a later moment.
-/
import RecentLaunches.Proofs.Database.Reading
import RecentLaunches.Proofs.Timestamp.Chronology

namespace RecentLaunches

/-! ## The order of configurations -/

theorem Timestamp.stored_inj {t u : Timestamp} (ht : t.HasFourDigitYear) (hu : u.HasFourDigitYear) :
    t.stored = u.stored ↔ t.canonical = u.canonical := by
  refine ⟨fun h => ?_, fun h => ?_⟩
  · have hread := readStored_stored ht.1 ht.2
    rw [h, readStored_stored hu.1 hu.2] at hread
    exact (Option.some.inj hread).symm
  · rw [← t.stored_canonical, h, u.stored_canonical]

/-- One configuration was made before another one, or both at one moment, and its memento has the lesser bytes. -/
def Configuration.Precedes (a b : Configuration) : Prop :=
  a.createdAt.Precedes b.createdAt ∨
    a.createdAt = b.createdAt ∧ Text.octets a.memento < Text.octets b.memento

instance (a b : Configuration) : Decidable (a.Precedes b) :=
  inferInstanceAs (Decidable (_ ∨ _))

theorem Configuration.Precedes.asymm {a b : Configuration} (h : a.Precedes b) : ¬b.Precedes a := by
  intro h'
  unfold Configuration.Precedes Timestamp.Precedes at h h'
  rcases h with h | ⟨he, h⟩ <;> rcases h' with h' | ⟨he', h'⟩
  · omega
  · rw [he'] at h
    omega
  · rw [he] at h'
    omega
  · exact List.lt_asymm h h'

/-- Configurations are in their order in one way only. -/
theorem Configuration.eq_of_pairwise {cs ds : List Configuration} (h : ∀ c, c ∈ cs ↔ c ∈ ds)
    (hcs : cs.Pairwise Configuration.Precedes) (hds : ds.Pairwise Configuration.Precedes) : cs = ds := by
  have hnodup : ∀ {l : List Configuration}, l.Pairwise Configuration.Precedes → l.Nodup := by
    intro l hl
    refine hl.imp ?_
    rintro a _ hab rfl
    exact hab.asymm hab
  exact ((List.perm_ext_iff_of_nodup (hnodup hcs) (hnodup hds)).2 h).eq_of_pairwise
    (fun _ _ _ _ hab hba => absurd hba hab.asymm) hcs hds

/-- Rows of different mementos are in the order of the canonical forms of their configurations. -/
theorem Row.le_ofConfiguration_iff {a b : Configuration} (ha : a.createdAt.HasFourDigitYear)
    (hb : b.createdAt.HasFourDigitYear) (hne : a.memento ≠ b.memento) :
    Row.le (.ofConfiguration a) (.ofConfiguration b) = true ↔ a.canonical.Precedes b.canonical := by
  rw [Row.le_iff_precedes hne]
  unfold Row.Precedes Configuration.Precedes Configuration.canonical
  rw [Text.octets_lt_octets_iff, ← Timestamp.stored_lt_stored_iff ha hb, ← Timestamp.stored_inj ha hb]
  exact Iff.rfl

/-! ## Operations -/

/-- The map after some operations, one after the other. -/
def Registry.afterAll (r : Registry) (os : List Operation) : Registry :=
  os.foldl Registry.after r

namespace Database

variable {d : Database} {r : Registry}

/-- The database after some operations, one after the other. -/
def carryOutAll (d : Database) (os : List Operation) : Database :=
  os.foldl (fun d o => (d.carryOut o).2) d

/-- Operations leave a database that holds the map after them, by induction on the operations. -/
theorem Keeps.carryOutAll (h : d.Keeps r) {os : List Operation}
    (hos : ∀ c, .save c ∈ os → c.createdAt.HasFourDigitYear) :
    (d.carryOutAll os).Keeps (r.afterAll (os.map Operation.canonical)) := by
  induction os generalizing d r with
  | nil => exact h
  | cons o os ih =>
    obtain ⟨-, -, -, hnext⟩ := h.carryOut fun c hc => hos c (List.mem_cons.2 (.inl hc.symm))
    exact ih hnext fun c hc => hos c (List.mem_cons_of_mem _ hc)

/-- What is there was saved in a year of four digits, and is canonical. -/
theorem Keeps.saved (h : d.Keeps r) {c : Configuration} (hc : r.find c.memento = some c) :
    c.createdAt.HasFourDigitYear ∧ c.createdAt.IsCanonical := by
  obtain ⟨t, ht, hcolumns⟩ := h.isCurrent.table
  obtain ⟨row, hrow, hdecode⟩ := (h.find_eq_some_iff (fullTable_eq_ok_iff.2 ⟨ht, hcolumns⟩)).1 hc
  obtain ⟨c', rfl, hyear, hcanonical⟩ := (h.isSaved t ht).saved row hrow
  rw [Row.decode_ofConfiguration hyear.1 hyear.2, Configuration.canonical_eq_self_iff.2 hcanonical] at hdecode
  cases hdecode
  exact ⟨hyear, hcanonical⟩

/-- All configurations of a map are listed in their order. -/
theorem Keeps.pairwise_precedes (h : d.Keeps r) {cs : List Configuration} (hcs : r.Lists cs) :
    cs.Pairwise Configuration.Precedes := by
  refine (hcs.sorted.and hcs.nodup).imp_of_mem fun {a b} ha hb hab => ?_
  have hfinda := (hcs.mem_iff a).1 ha
  have hfindb := (hcs.mem_iff b).1 hb
  obtain ⟨hyeara, hcanonicala⟩ := h.saved hfinda
  obtain ⟨hyearb, hcanonicalb⟩ := h.saved hfindb
  have hne : a.memento ≠ b.memento := by
    intro hm
    -- there is one configuration of a memento
    rw [hm, hfindb] at hfinda
    exact hab.2 (Option.some.inj hfinda).symm
  have hprecedes := (Row.le_ofConfiguration_iff hyeara hyearb hne).1 hab.1
  rwa [Configuration.canonical_eq_self_iff.2 hcanonicala, Configuration.canonical_eq_self_iff.2 hcanonicalb] at hprecedes

/-- A listing succeeds and has exactly the configurations of a map, each one before those that were made later or that
were made at the same moment and have a memento of greater bytes. -/
def ListsOldestFirst (d : Database) (r : Registry) : Prop :=
  ∃ cs, d.list = .ok cs ∧ (∀ c, c ∈ cs ↔ r.find c.memento = some c) ∧ cs.Pairwise Configuration.Precedes

theorem Keeps.listsOldestFirst (h : d.Keeps r) : d.ListsOldestFirst r := by
  obtain ⟨cs, hlist, hcs⟩ := h.list
  exact ⟨cs, hlist, hcs.mem_iff, h.pairwise_precedes hcs⟩

/-- There is one listing that is oldest first. -/
theorem ListsOldestFirst.list_eq {d : Database} {r : Registry} (h : d.ListsOldestFirst r) {cs : List Configuration}
    (hfind : ∀ c, r.find c.memento = some c ↔ c ∈ cs) (hcs : cs.Pairwise Configuration.Precedes) : d.list = .ok cs := by
  obtain ⟨ds, hlist, hmem, hsorted⟩ := h
  rw [hlist, Configuration.eq_of_pairwise (fun c => (hmem c).trans (hfind c)) hsorted hcs]

/-- Texts are in the order of time for all canonical moments, and for no other one. -/
theorem isCanonical_iff_octets_lt {t : Timestamp} (ht : t.HasFourDigitYear) :
    t.IsCanonical ↔ ∀ u : Timestamp, u.HasFourDigitYear → u.IsCanonical →
      (Text.octets t.stored < Text.octets u.stored ↔ t.Precedes u) := by
  constructor
  · intro hcanonical u hu hu'
    rw [Text.octets_lt_octets_iff, Timestamp.stored_lt_stored_iff ht hu, Timestamp.canonical_eq_self_iff.2 hcanonical,
      Timestamp.canonical_eq_self_iff.2 hu']
  · intro h
    by_contra hcanonical
    obtain ⟨u, hdate, hu, hprecedes, hnot⟩ := Timestamp.exists_precedes_of_not_isCanonical hcanonical
    have hyear : u.HasFourDigitYear := by
      unfold Timestamp.HasFourDigitYear
      rw [hdate]
      exact ht
    have hlt := (h u hyear hu).2 hprecedes
    rw [Text.octets_lt_octets_iff, Timestamp.stored_lt_stored_iff ht hyear] at hlt
    exact hnot hlt

/-- Listing is oldest first, though texts are sorted. After any operations on a new database that save configurations
of years of four digits, to any fraction of a second and leap seconds among them, listing succeeds and gives exactly
those that are there in their canonical forms, oldest first; and so it gives those that were saved, oldest first, where
they are canonical. For the bytes of what is stored of two such moments are in the order of their canonical forms. That
is the order of time for canonical moments, and for any other one it is not; for moments that a clock gives, which are
canonical, it is the order of the nanoseconds that it counts. -/
theorem list_of_carryOutAll (os : List Operation) (hos : ∀ c, .save c ∈ os → c.createdAt.HasFourDigitYear) :
    (fresh.carryOutAll os).ListsOldestFirst (Registry.empty.afterAll (os.map Operation.canonical)) ∧
    ((∀ c, .save c ∈ os → c.createdAt.IsCanonical) →
      (fresh.carryOutAll os).ListsOldestFirst (Registry.empty.afterAll os)) ∧
    (∀ t u : Timestamp, t.HasFourDigitYear → u.HasFourDigitYear →
      (Text.octets t.stored < Text.octets u.stored ↔ t.canonical.Precedes u.canonical)) ∧
    (∀ t : Timestamp, t.HasFourDigitYear →
      (t.IsCanonical ↔ ∀ u : Timestamp, u.HasFourDigitYear → u.IsCanonical →
        (Text.octets t.stored < Text.octets u.stored ↔ t.Precedes u))) ∧
    ∀ t u i j, Timestamp.ofNanos? i = some t → Timestamp.ofNanos? j = some u →
      t.IsCanonical ∧ (t.Precedes u ↔ i < j) := by
  have hlists := (keeps_fresh.carryOutAll hos).listsOldestFirst
  refine ⟨hlists, fun hcanonical => ?_, fun t u ht hu => ?_, fun t => isCanonical_iff_octets_lt, fun t u i j ht hu => ?_⟩
  · rw [Operation.map_canonical hcanonical] at hlists
    exact hlists
  · rw [Text.octets_lt_octets_iff]
    exact Timestamp.stored_lt_stored_iff ht hu
  · exact ⟨Timestamp.isCanonical_of_ofNanos? ht, Timestamp.precedes_ofNanos? ht hu⟩

/-- The last nanosecond before a leap second. -/
def beforeLeap : Timestamp :=
  ⟨⟨2016, 12, 31, by decide⟩, ⟨23, 59, 59, 999999999, by decide⟩⟩

def leap : Timestamp :=
  ⟨⟨2016, 12, 31, by decide⟩, ⟨23, 59, 59, 1000000000, by decide⟩⟩

/-- A thousandth after midnight. -/
def afterLeap : Timestamp :=
  ⟨⟨2017, 1, 1, by decide⟩, ⟨0, 0, 0, 1000000, by decide⟩⟩

/-- Configurations around a leap second, two of them within it. -/
def aroundLeap : List Operation :=
  [.save (.new "d" "D" [.run] afterLeap), .save (.new "é" "E" [.run] leap), .save (.new "z" "Z" [.run] leap),
    .save (.new "b" "B" [.run] beforeLeap), .save (.new "c" "C" [.run] afterLeap), .delete "c", .rename "d" "δ"]

/-- The leap second is between the seconds around it, and of two configurations the one with the lesser bytes is first. -/
theorem list_of_carryOutAll_aroundLeap :
    (∀ c, .save c ∈ aroundLeap → c.createdAt.HasFourDigitYear ∧ c.createdAt.IsCanonical) ∧
    (fresh.carryOutAll aroundLeap).list =
      .ok [.new "b" "B" [.run] beforeLeap, .new "z" "Z" [.run] leap, .new "é" "E" [.run] leap,
        .new "d" "δ" [.run] afterLeap] ∧
    Timestamp.Precedes leap afterLeap ∧ Text.octets leap.stored < Text.octets afterLeap.stored := by
  have hos : ∀ c, .save c ∈ aroundLeap → c.createdAt.HasFourDigitYear ∧ c.createdAt.IsCanonical := by
    intro c hc
    simp only [aroundLeap, List.mem_cons, Operation.save.injEq, reduceCtorEq, List.not_mem_nil, or_false] at hc
    rcases hc with rfl | rfl | rfl | rfl | rfl <;> decide
  have hleap : Timestamp.Precedes leap afterLeap := by decide +kernel
  obtain ⟨-, hlists, -, hbytes, -⟩ := list_of_carryOutAll aroundLeap fun c hc => (hos c hc).1
  have hfind : ∀ c, (Registry.empty.afterAll aroundLeap).find c.memento = some c ↔
      c ∈ [.new "b" "B" [.run] beforeLeap, .new "z" "Z" [.run] leap, .new "é" "E" [.run] leap,
        .new "d" "δ" [.run] afterLeap] := by
    refine fun c => Registry.find_eq_some_iff_mem (by decide +kernel) fun m hm => ?_
    have hne : m ≠ "b" ∧ m ≠ "z" ∧ m ≠ "é" ∧ m ≠ "d" := by simpa [Configuration.new] using hm
    simp [Registry.afterAll, aroundLeap, Registry.after, Registry.insert, Registry.erase, Registry.rename,
      Registry.empty, Configuration.new, hne]
  refine ⟨hos, ?_, hleap, ((hbytes leap (by decide)).1 (by decide) afterLeap (by decide) (by decide)).2 hleap⟩
  exact (hlists fun c hc => (hos c hc).2).list_eq hfind (by decide +kernel)

/-- The eleventh second of that minute, which comes after the leap second of `astray`. -/
def onTime : Configuration :=
  .new "b" "B" [.run] ⟨astray.createdAt.date, ⟨12, 0, 11, 0, by decide⟩⟩

/-- The older one of two configurations is listed last, and its text has the greater bytes. -/
theorem not_listsOldestFirst_astray :
    (∀ c, .save c ∈ [Operation.save astray, .save onTime] → c.createdAt.HasFourDigitYear) ∧
      astray.createdAt.Precedes onTime.createdAt ∧
      Text.octets onTime.createdAt.stored < Text.octets astray.createdAt.stored ∧
      (fresh.carryOutAll [.save astray, .save onTime]).list = .ok [onTime, astray.canonical] ∧
      ¬(fresh.carryOutAll [.save astray, .save onTime]).ListsOldestFirst
        (Registry.empty.afterAll [.save astray, .save onTime]) := by
  have hos : ∀ c, .save c ∈ [Operation.save astray, .save onTime] → c.createdAt.HasFourDigitYear := by
    intro c hc
    simp only [List.mem_cons, Operation.save.injEq, List.not_mem_nil, or_false] at hc
    rcases hc with rfl | rfl <;> decide
  have hfind : ∀ c,
      (Registry.empty.afterAll [.save astray.canonical, .save onTime.canonical]).find c.memento = some c ↔
        c ∈ [onTime, astray.canonical] := by
    refine fun c => Registry.find_eq_some_iff_mem (by decide +kernel) fun m hm => ?_
    obtain ⟨hb, ha⟩ : m ≠ onTime.memento ∧ m ≠ astray.memento := by simpa [Configuration.canonical] using hm
    simp [Registry.afterAll, Registry.after, Registry.insert, Registry.empty, Configuration.canonical, ha, hb]
  have hlist : (fresh.carryOutAll [.save astray, .save onTime]).list = .ok [onTime, astray.canonical] :=
    (keeps_fresh.carryOutAll hos).listsOldestFirst.list_eq hfind (by decide +kernel)
  refine ⟨hos, by decide +kernel, by decide +kernel, hlist, ?_⟩
  rintro ⟨cs, hcs, hmem, -⟩
  rw [hlist] at hcs
  cases hcs
  have hastray : astray ∈ [onTime, astray.canonical] := (hmem astray).2 (by decide +kernel)
  exact absurd hastray (by decide +kernel)

end Database

end RecentLaunches
