/-
Reading all configurations and reading one. What is found under the memento of a row is what the row is read as,
whatever is stored in it. So a listing gives what looking the rows up gives, one after the other in their order, or it
fails as the first look-up that does; and a row fails by the first of its columns whose value has no meaning.
-/
import RecentLaunches.Proofs.Database.Repository
import RecentLaunches.Proofs.Text.Order

namespace RecentLaunches

/-! ## Columns -/

/-- A column whose values need not have a meaning. -/
inductive Column
  | modes
  | isPrivate
  | isTransient
  | createdAt
  deriving DecidableEq, Repr

namespace Column

/-- In the order in which a row is read. -/
def all : List Column := [modes, isPrivate, isTransient, createdAt]

end Column

theorem Cell.isSome_flag (c : Cell) : c.flag.isSome = (c.storage == .integer) := by
  cases c <;> rfl

namespace Row

variable {r : Row} {rows : List Row} {cs : List Configuration} {e : DatabaseFault}

/-- Whether the value of a column has a meaning. -/
def hasMeaning (r : Row) : Column → Bool
  | .modes => (StoredModes.decode r.modes).isSome
  | .isPrivate => r.isPrivate.storage == .integer
  | .isTransient => r.isTransient.storage == .integer
  | .createdAt => (Timestamp.readStored r.createdAt).isSome

/-- The first column whose value has no meaning. -/
def unreadable? (r : Row) : Option Column :=
  Column.all.find? (!r.hasMeaning ·)

/-- How reading a row fails by a column. A flag is told by the number and the name of its column and by what is stored
there instead, a text by what it says. -/
def fault (r : Row) : Column → DatabaseFault
  | .modes => .conversion 0 .text (.modes r.modes)
  | .isPrivate => .invalidType 3 "private" r.isPrivate.storage
  | .isTransient => .invalidType 4 "transient" r.isTransient.storage
  | .createdAt => .conversion 0 .text (.time r.createdAt)

theorem decode_eq_error_iff : r.decode = .error e ↔ r.unreadable?.map r.fault = some e := by
  unfold decode converted flagged unreadable? Column.all
  simp only [bind, Except.bind, pure, Except.pure, List.find?_cons, hasMeaning, List.find?_nil, ← Cell.isSome_flag]
  rcases StoredModes.decode r.modes with _ | modes
  · simp [fault]
  rcases r.isPrivate.flag with _ | isPrivate
  · simp [fault]
  rcases r.isTransient.flag with _ | isTransient
  · simp [fault]
  rcases Timestamp.readStored r.createdAt with _ | createdAt <;> simp [fault]

/-! ## Many rows -/

/-- Rows are read one by one. -/
theorem mapM_decode_eq_ok_iff_forall₂ :
    rows.mapM decode = .ok cs ↔ List.Forall₂ (fun r c => r.decode = .ok c) rows cs := by
  induction rows generalizing cs with
  | nil => simp [pure, Except.pure, eq_comm]
  | cons r rows ih =>
    rw [mapM_decode_cons, List.forall₂_cons_left_iff]
    simp only [← ih]
    rcases r.decode with e | c
    · simp [Except.bind]
    · rcases rows.mapM decode with e | ds
      · simp [Except.bind, Except.map]
      · simp [Except.bind, Except.map, eq_comm]

/-- Rows fail together as the first of them that fails. -/
theorem mapM_decode_eq_error_iff :
    rows.mapM decode = .error e ↔ ∃ before r after, rows = before ++ r :: after ∧
      (∀ x ∈ before, ∃ c, x.decode = .ok c) ∧ r.decode = .error e := by
  induction rows with
  | nil => simp [pure, Except.pure]
  | cons s rows ih =>
    rw [mapM_decode_cons]
    simp only [List.cons_eq_append_iff]
    rcases hs : s.decode with e' | c
    · constructor
      · intro h
        cases h
        exact ⟨[], s, rows, .inl ⟨rfl, rfl⟩, (fun _ h => nomatch h), hs⟩
      · rintro ⟨before, r, after, ⟨rfl, hr⟩ | ⟨front, rfl, -⟩, hbefore, he⟩
        · obtain ⟨rfl, -⟩ := List.cons.inj hr
          rw [he] at hs
          cases hs
          rfl
        · -- the row itself would have been read
          obtain ⟨c, hc⟩ := hbefore s List.mem_cons_self
          rw [hs] at hc
          cases hc
    · have hrest : (Except.ok c).bind (fun c => (rows.mapM decode).map (c :: ·)) = .error e ↔
          rows.mapM decode = .error e := by
        rcases rows.mapM decode with e' | ds <;> simp [Except.bind, Except.map]
      rw [hrest, ih]
      constructor
      · rintro ⟨before, r, after, rfl, hbefore, he⟩
        refine ⟨s :: before, r, after, .inr ⟨before, rfl, rfl⟩, List.forall_mem_cons.2 ⟨⟨c, hs⟩, hbefore⟩, he⟩
      · rintro ⟨before, r, after, ⟨rfl, hr⟩ | ⟨front, rfl, hrows⟩, hbefore, he⟩
        · obtain ⟨rfl, -⟩ := List.cons.inj hr
          rw [he] at hs
          cases hs
        · exact ⟨front, r, after, hrows, (List.forall_mem_cons.1 hbefore).2, he⟩

/-! ## The order of rows -/

/-- One row is listed before another one: the bytes of its time are less, or those of its memento at one time. -/
def Precedes (a b : Row) : Prop :=
  Text.octets a.createdAt < Text.octets b.createdAt ∨
    a.createdAt = b.createdAt ∧ Text.octets a.memento < Text.octets b.memento

instance (a b : Row) : Decidable (a.Precedes b) :=
  inferInstanceAs (Decidable (_ ∨ _))

theorem Precedes.asymm {a b : Row} (h : a.Precedes b) : ¬b.Precedes a := by
  rintro (h' | ⟨he', h'⟩) <;> rcases h with h | ⟨he, h⟩
  · exact List.lt_asymm h h'
  · exact List.lt_irrefl _ (he ▸ h')
  · exact List.lt_irrefl _ (he' ▸ h)
  · exact List.lt_asymm h h'

/-- Rows are in their order in one way only. -/
theorem eq_of_pairwise {rows' : List Row} (hperm : rows.Perm rows') (h : rows.Pairwise Precedes)
    (h' : rows'.Pairwise Precedes) : rows = rows' :=
  hperm.eq_of_pairwise (fun _ _ _ _ hab hba => absurd hba hab.asymm) h h'

theorem le_iff_precedes {a b : Row} (hne : a.memento ≠ b.memento) : a.le b = true ↔ a.Precedes b := by
  have hmementos : a.memento ≤ b.memento ↔ a.memento < b.memento :=
    ⟨fun h => Std.lt_of_le_of_ne h hne, Std.le_of_lt⟩
  unfold Precedes
  rw [le_iff, Text.octets_lt_octets_iff, Text.octets_lt_octets_iff, hmementos]

end Row

theorem Table.IsKeyed.pairwise_sorted {t : Table} (h : t.IsKeyed) : t.sorted.Pairwise Row.Precedes := by
  have hdiffer : t.sorted.Pairwise fun a b => a.memento ≠ b.memento := by
    have hmementos : (t.sorted.map (·.memento)).Nodup := (t.perm_sorted.map _).nodup_iff.2 h
    exact List.pairwise_map.1 hmementos
  exact (t.pairwise_sorted.and hdiffer).imp fun hab => (Row.le_iff_precedes hab.2).1 hab.1

namespace Database

variable {d : Database} {t : Table} {r : Row}

/-! ## Looking up and listing -/

theorem get_of_mem (h : d.fullTable = .ok t) (hkey : t.IsKeyed) (hr : r ∈ t.rows) :
    d.get r.memento = r.decode.map some := by
  rw [get_of_ok h, hkey.find?_of_mem hr]

/-- A row is found as it is read, and it is found in no other way. -/
theorem get_eq_ok_iff_of_mem (h : d.fullTable = .ok t) (hkey : t.IsKeyed) (hr : r ∈ t.rows) {c : Configuration} :
    d.get r.memento = .ok (some c) ↔ r.decode = .ok c := by
  rw [get_of_mem h hkey hr]
  rcases r.decode with e | c' <;> simp [Except.map]

theorem get_eq_error_iff_of_mem (h : d.fullTable = .ok t) (hkey : t.IsKeyed) (hr : r ∈ t.rows) {e : DatabaseFault} :
    d.get r.memento = .error e ↔ r.decode = .error e := by
  rw [get_of_mem h hkey hr]
  rcases r.decode with e | c' <;> simp [Except.map]

theorem forall₂_get_iff (h : d.fullTable = .ok t) (hkey : t.IsKeyed) {rows : List Row}
    (hrows : ∀ r ∈ rows, r ∈ t.rows) {cs : List Configuration} :
    List.Forall₂ (fun r c => d.get r.memento = .ok (some c)) rows cs ↔
      List.Forall₂ (fun r c => r.decode = .ok c) rows cs := by
  induction rows generalizing cs with
  | nil => cases cs <;> simp
  | cons r rows ih =>
    obtain ⟨hr, hrows⟩ := List.forall_mem_cons.1 hrows
    simp only [List.forall₂_cons_left_iff, get_eq_ok_iff_of_mem h hkey hr, ih hrows]

/-- Listing and looking up read alike, whatever is stored. There is an order of the rows, by the bytes of the stored time
and then by those of the memento, in which they are listed. A listing succeeds exactly if every memento of the table is
found, and then it has what is found under each of them, in that order. Otherwise it fails as the look-up of the first
memento in that order that is not found; and a look-up fails by the first of the columns of its row, the modes, then the
private flag, then the transient one, then the time, whose value has no meaning. The database is the same after
either. -/
theorem list_iff_get (h : d.fullTable = .ok t) (hkey : t.IsKeyed) :
    ∃ rows : List Row, rows.Perm t.rows ∧ rows.Pairwise Row.Precedes ∧
      ((∃ cs, d.list = .ok cs) ↔ ∀ r ∈ t.rows, ∃ c, d.get r.memento = .ok (some c)) ∧
      (∀ cs, d.list = .ok cs ↔ List.Forall₂ (fun r c => d.get r.memento = .ok (some c)) rows cs) ∧
      (∀ e, d.list = .error e ↔ ∃ before r after, rows = before ++ r :: after ∧
        (∀ x ∈ before, ∃ c, d.get x.memento = .ok (some c)) ∧ d.get r.memento = .error e) ∧
      (∀ r ∈ t.rows, ∀ e, d.get r.memento = .error e ↔ r.unreadable?.map r.fault = some e) ∧
      (d.carryOut .list).2 = d ∧ ∀ m, (d.carryOut (.get m)).2 = d := by
  have hmem : ∀ r ∈ t.sorted, r ∈ t.rows := fun r => Table.mem_sorted.1
  refine ⟨t.sorted, t.perm_sorted, hkey.pairwise_sorted, ?_, fun cs => ?_, fun e => ?_, fun r hr e => ?_, rfl,
    fun _ => rfl⟩
  · simp only [list_eq_ok_iff, h, Except.ok.injEq, exists_eq_left', exists_and_left, exists_eq, and_true]
    exact forall₂_congr fun r hr => exists_congr fun c => (get_eq_ok_iff_of_mem h hkey hr).symm
  · rw [list_of_ok h, Row.mapM_decode_eq_ok_iff_forall₂, forall₂_get_iff h hkey hmem]
  · rw [list_of_ok h, Row.mapM_decode_eq_error_iff]
    refine exists_congr fun before => exists_congr fun r => exists_congr fun after => and_congr_right fun hrows => ?_
    rw [hrows] at hmem
    refine and_congr (forall₂_congr fun x hx => exists_congr fun c => ?_) ?_
    · exact (get_eq_ok_iff_of_mem h hkey (hmem x (List.mem_append_left _ hx))).symm
    · exact (get_eq_error_iff_of_mem h hkey (hmem r (List.mem_append_right _ List.mem_cons_self))).symm
  · rw [get_eq_error_iff_of_mem h hkey hr, Row.decode_eq_error_iff]

/-- Neither the modes nor the flags have a meaning, and the time is none. -/
def unsound : Row :=
  ⟨"b", "B", "[\"run\"", .text "yes", .text "no", "9"⟩

/-- Neither flag has a meaning, and the time is none. -/
def unflagged : Row :=
  ⟨"c", "C", "[]", .blob [0], .real 0x3ff8000000000000, "9"⟩

/-- The transient flag is one and a half, and the time is none. -/
def unsettled : Row :=
  ⟨"d", "D", "[]", .integer 1, .real 0x3ff8000000000000, "9"⟩

/-- The day is not in the calendar. -/
def undated : Row :=
  ⟨"é", "E", "[]", .integer 2, .integer 0, "0000-02-30T00:00:00Z"⟩

/-- Rows by other hands around a saved one. -/
def damaged : Table :=
  ⟨true, [unsettled, unflagged, unsound, .ofConfiguration early, undated]⟩

/-- The day that is not in the calendar is listed before what has no time at all, and so it decides. -/
theorem list_iff_get_damaged :
    let d : Database := { fresh with table := some damaged }
    d.fullTable = .ok damaged ∧ damaged.IsKeyed ∧ d.get "a" = .ok (some early) ∧
      d.get "b" = .error (.conversion 0 .text (.modes "[\"run\"")) ∧
      d.get "c" = .error (.invalidType 3 "private" .blob) ∧ d.get "d" = .error (.invalidType 4 "transient" .real) ∧
      d.get "é" = .error (.conversion 0 .text (.time "0000-02-30T00:00:00Z")) ∧
      d.list = .error (.conversion 0 .text (.time "0000-02-30T00:00:00Z")) := by
  intro d
  have h : d.fullTable = .ok damaged := rfl
  have hkey : damaged.IsKeyed := by decide
  obtain ⟨rows, hperm, hsorted, -, -, hlist, hget, -⟩ := list_iff_get h hkey
  have hrows : rows = [.ofConfiguration early, undated, unsound, unflagged, unsettled] :=
    Row.eq_of_pairwise (hperm.trans (by decide)) hsorted (by decide +kernel)
  have hearly : d.get "a" = .ok (some early) := by decide +kernel
  have hundated : d.get "é" = .error (.conversion 0 .text (.time "0000-02-30T00:00:00Z")) :=
    (hget undated (by decide) _).2 (by decide +kernel)
  refine ⟨h, hkey, hearly, (hget unsound (by decide) _).2 (by decide +kernel),
    (hget unflagged (by decide) _).2 (by decide +kernel), (hget unsettled (by decide) _).2 (by decide +kernel), hundated,
    (hlist _).2 ⟨[.ofConfiguration early], undated, _, hrows, ?_, hundated⟩⟩
  exact List.forall_mem_singleton.2 ⟨early, hearly⟩

end Database

end RecentLaunches
