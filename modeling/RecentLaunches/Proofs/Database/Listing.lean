/-
Listing all configurations. A table is listed exactly if every one of its rows can be read, and the list has
the configuration of every row once. What saving does to the list follows: a moment in a year of four digits adds
or replaces one configuration, any other moment makes every later listing fail. What comes back is what was saved,
but for a leap second that is not at the end of its minute; no exchanged form has one.
-/
import RecentLaunches.Json.Forms
import RecentLaunches.Proofs.Database.Rows

namespace RecentLaunches

/-! ## Exchanged forms -/

/-- The time of an exchanged form is canonical. -/
theorem Configuration.isCanonical_of_ofJson? {j : Json} {c : Configuration} (h : ofJson? j = some c) :
    c.createdAt.IsCanonical := by
  obtain ⟨parts, -, h⟩ := Option.bind_eq_some_iff.1 h
  split at h
  · -- the time is the last of the parts
    iterate 5 obtain ⟨_, -, h⟩ := Option.bind_eq_some_iff.1 h
    obtain ⟨createdAt, ht, h⟩ := Option.bind_eq_some_iff.1 h
    cases h
    obtain ⟨text, -, ht⟩ := Option.bind_eq_some_iff.1 ht
    exact Timestamp.isCanonical_of_readExchanged ht
  · cases h

/-! ## Reading many rows -/

namespace Row

variable {r : Row} {rows : List Row} {c : Configuration} {cs : List Configuration}

def configuration? (r : Row) : Option Configuration :=
  r.decode.toOption

theorem configuration?_eq_some_iff : r.configuration? = some c ↔ r.decode = .ok c := by
  unfold configuration?
  rcases r.decode with e | c' <;> simp [Except.toOption]

theorem mapM_decode_cons (r : Row) (rows : List Row) :
    (r :: rows).mapM decode = r.decode.bind fun c => (rows.mapM decode).map (c :: ·) := by
  rw [List.mapM_cons]
  rcases r.decode with e | c
  · rfl
  · show (do let cs ← rows.mapM decode; pure (c :: cs)) = (rows.mapM decode).map (c :: ·)
    rcases rows.mapM decode with e | cs <;> rfl

/-- Rows are all read, or there is no result. -/
theorem mapM_decode_eq_ok_iff :
    rows.mapM decode = .ok cs ↔ (∀ r ∈ rows, ∃ c, r.decode = .ok c) ∧ cs = rows.filterMap configuration? := by
  induction rows generalizing cs with
  | nil => simp [pure, Except.pure, eq_comm]
  | cons r rows ih =>
    rw [mapM_decode_cons, List.forall_mem_cons]
    rcases hr : r.decode with e | c
    · simp [Except.bind]
    rw [List.filterMap_cons_some (configuration?_eq_some_iff.2 hr)]
    show (rows.mapM decode).map (c :: ·) = .ok cs ↔ _
    rcases hrows : rows.mapM decode with e | ds
    · have hnot : ¬ ∀ r ∈ rows, ∃ c, r.decode = .ok c := by
        intro hall
        rw [ih.2 ⟨hall, rfl⟩] at hrows
        cases hrows
      constructor
      · intro h; cases h
      · rintro ⟨⟨-, hall⟩, -⟩; exact absurd hall hnot
    · obtain ⟨hall, rfl⟩ := ih.1 hrows
      constructor
      · intro h; cases h; exact ⟨⟨⟨c, rfl⟩, hall⟩, rfl⟩
      · rintro ⟨-, rfl⟩; rfl

/-- Where all rows that cannot be read fail alike, so do all rows together. -/
theorem mapM_decode_eq_error {e : DatabaseFault} (hr : r ∈ rows) (he : r.decode = .error e)
    (hall : ∀ s ∈ rows, ∀ e', s.decode = .error e' → e' = e) : rows.mapM decode = .error e := by
  induction rows with
  | nil => cases hr
  | cons s rows ih =>
    rw [mapM_decode_cons]
    rcases hs : s.decode with e' | c
    · rw [hall s List.mem_cons_self e' hs]
      rfl
    · have hr' : r ∈ rows := by
        rcases List.mem_cons.1 hr with rfl | hr'
        · rw [he] at hs; cases hs
        · exact hr'
      show (rows.mapM decode).map (c :: ·) = .error e
      rw [ih hr' fun s hs => hall s (List.mem_cons_of_mem _ hs)]
      rfl

theorem memento_of_configuration? (h : r.configuration? = some c) : c.memento = r.memento :=
  memento_of_decode (configuration?_eq_some_iff.1 h)

/-- Leaving out a memento among rows leaves it out among their configurations. -/
theorem filterMap_filter_memento (rows : List Row) (m : Memento) :
    (rows.filter (·.memento != m)).filterMap configuration? =
      (rows.filterMap configuration?).filter (·.memento != m) := by
  rw [List.filterMap_filter, List.filter_filterMap]
  refine List.filterMap_congr fun r _ => ?_
  rcases hr : r.configuration? with _ | c
  · simp
  · rw [← memento_of_configuration? hr]
    simp [Option.filter]

/-! ## The order of rows -/

theorem le_iff {a b : Row} :
    a.le b = true ↔ a.createdAt < b.createdAt ∨ (a.createdAt = b.createdAt ∧ a.memento ≤ b.memento) := by
  simp [le]

theorem le_trans {a b c : Row} (h : a.le b = true) (h' : b.le c = true) : a.le c = true := by
  rw [le_iff] at *
  rcases h with h | ⟨h, hm⟩ <;> rcases h' with h' | ⟨h', hm'⟩
  · exact .inl (String.lt_trans h h')
  · exact .inl (h' ▸ h)
  · exact .inl (h ▸ h')
  · exact .inr ⟨h.trans h', String.le_trans hm hm'⟩

theorem le_total (a b : Row) : (a.le b || b.le a) = true := by
  rw [Bool.or_eq_true, le_iff, le_iff]
  by_cases h : a.createdAt < b.createdAt
  · exact .inl (.inl h)
  by_cases h' : b.createdAt < a.createdAt
  · exact .inr (.inl h')
  have heq : a.createdAt = b.createdAt := String.le_antisymm (String.not_lt.1 h') (String.not_lt.1 h)
  rcases String.le_total a.memento b.memento with hm | hm
  · exact .inl (.inr ⟨heq, hm⟩)
  · exact .inr (.inr ⟨heq.symm, hm⟩)

end Row

/-! ## Tables -/

namespace Table

variable {t : Table} {r : Row}

theorem perm_sorted (t : Table) : t.sorted.Perm t.rows :=
  List.mergeSort_perm ..

theorem pairwise_sorted (t : Table) : t.sorted.Pairwise fun a b => a.le b = true :=
  @List.pairwise_mergeSort _ Row.le (fun _ _ _ => Row.le_trans) Row.le_total t.rows

theorem mem_sorted : r ∈ t.sorted ↔ r ∈ t.rows :=
  t.perm_sorted.mem_iff

end Table

namespace Database

variable {d d' : Database} {t : Table} {c : Configuration} {cs : List Configuration}

theorem list_of_ok (h : d.fullTable = .ok t) : d.list = t.sorted.mapM Row.decode := by
  unfold list
  rw [h]
  rfl

theorem list_of_error {e : DatabaseFault} (h : d.fullTable = .error e) : d.list = .error e := by
  unfold list
  rw [h]
  rfl

/-- A table is listed exactly if all of its rows can be read. -/
theorem list_eq_ok_iff :
    d.list = .ok cs ↔ ∃ t, d.fullTable = .ok t ∧ (∀ r ∈ t.rows, ∃ c, r.decode = .ok c) ∧
      cs = t.sorted.filterMap Row.configuration? := by
  constructor
  · intro h
    rcases hf : d.fullTable with e | t
    · rw [list_of_error hf] at h
      cases h
    · rw [list_of_ok hf] at h
      obtain ⟨hall, hcs⟩ := Row.mapM_decode_eq_ok_iff.1 h
      exact ⟨t, rfl, fun r hr => hall r (Table.mem_sorted.2 hr), hcs⟩
  · rintro ⟨t, hf, hall, hcs⟩
    rw [list_of_ok hf]
    exact Row.mapM_decode_eq_ok_iff.2 ⟨fun r hr => hall r (Table.mem_sorted.1 hr), hcs⟩

/-! ## Saving -/

theorem fullTable_of_save (h : d.save c = .ok d') :
    ∃ t, d.fullTable = .ok t ∧ d'.fullTable = .ok (t.insert (.ofConfiguration c)) := by
  obtain ⟨t, ht, rfl⟩ := save_eq_ok_iff.1 h
  exact ⟨t, ht, fullTable_eq_ok_iff.2 ⟨rfl, (fullTable_eq_ok_iff.1 ht).2⟩⟩

/-- The rows of a table with one row more: that row, and old ones of other mementos. -/
theorem mem_rows_insert {r s : Row} : s ∈ (t.insert r).rows ↔ s = r ∨ (s ∈ t.rows ∧ s.memento ≠ r.memento) := by
  show s ∈ t.rows.filter (·.memento != r.memento) ++ [r] ↔ _
  rw [List.mem_append, List.mem_singleton, List.mem_filter, bne_iff_ne]
  exact or_comm

/-- A configuration that was saved in a year of four digits is listed with all others, in its canonical form. -/
theorem list_of_save (h : d.save c = .ok d') (hc : c.createdAt.HasFourDigitYear) (hl : d.list = .ok cs) :
    ∃ cs', d'.list = .ok cs' ∧ cs'.Perm (c.canonical :: cs.filter (·.memento != c.memento)) := by
  obtain ⟨t, ht, ht'⟩ := fullTable_of_save h
  obtain ⟨u, hu, hall, rfl⟩ := list_eq_ok_iff.1 hl
  rw [ht] at hu
  cases hu
  have hdecode : (Row.ofConfiguration c).decode = .ok c.canonical := Row.decode_ofConfiguration hc.1 hc.2
  refine ⟨_, list_eq_ok_iff.2 ⟨_, ht', fun r hr => ?_, rfl⟩, ?_⟩
  · rcases mem_rows_insert.1 hr with rfl | ⟨hr, -⟩
    · exact ⟨c.canonical, hdecode⟩
    · exact hall r hr
  · have hrows : (t.insert (.ofConfiguration c)).rows.filterMap Row.configuration? =
        (t.rows.filterMap Row.configuration?).filter (·.memento != c.memento) ++ [c.canonical] := by
      show (t.rows.filter (·.memento != c.memento) ++ [Row.ofConfiguration c]).filterMap _ = _
      rw [List.filterMap_append, Row.filterMap_filter_memento, List.filterMap_cons_some
        (Row.configuration?_eq_some_iff.2 hdecode), List.filterMap_nil]
    have hold := ((t.perm_sorted.filterMap Row.configuration?).filter (·.memento != c.memento)).symm
    have hnew := (Table.perm_sorted (t.insert (.ofConfiguration c))).filterMap Row.configuration?
    rw [hrows] at hnew
    exact hnew.trans ((List.perm_append_singleton ..).trans (hold.cons c.canonical))

/-- A configuration that was saved in any other year makes listing fail. -/
theorem list_of_save_of_not (h : d.save c = .ok d') (hc : ¬ c.createdAt.HasFourDigitYear) (hl : d.list = .ok cs) :
    d'.list = .error (.conversion 0 .text (.time c.createdAt.stored)) := by
  obtain ⟨t, ht, ht'⟩ := fullTable_of_save h
  obtain ⟨u, hu, hall, -⟩ := list_eq_ok_iff.1 hl
  rw [ht] at hu
  cases hu
  -- the new row is the only one that cannot be read
  have hdecode := Row.decode_ofConfiguration_of_not hc
  rw [list_of_ok ht']
  refine Row.mapM_decode_eq_error (Table.mem_sorted.2 (mem_rows_insert.2 (.inl rfl))) hdecode ?_
  intro s hs e he
  rcases mem_rows_insert.1 (Table.mem_sorted.1 hs) with rfl | ⟨hs, -⟩
  · rw [hdecode] at he
    cases he
    rfl
  · obtain ⟨c', hc'⟩ := hall s hs
    rw [hc'] at he
    cases he

/-- A saved configuration is found again exactly if it was made in a year of four digits, and its time is canonical.
That of an exchanged form always is. Any other time of such a year is found and listed in its canonical form; and one
of any other year is saved all the same: it cannot be read any more, and neither can the table as a whole. -/
theorem get_iff_and_list_of_save (h : d.save c = .ok d') :
    (d'.get c.memento = .ok (some c) ↔ c.createdAt.HasFourDigitYear ∧ c.createdAt.IsCanonical) ∧
      (∀ j, Configuration.ofJson? j = some c →
        c.canonical = c ∧ (d'.get c.memento = .ok (some c) ↔ c.createdAt.HasFourDigitYear)) ∧
      (c.createdAt.HasFourDigitYear → d'.get c.memento = .ok (some c.canonical)) ∧
      (¬ c.createdAt.HasFourDigitYear →
        d'.get c.memento = .error (.conversion 0 .text (.time c.createdAt.stored))) ∧
      ∀ cs, d.list = .ok cs →
        (c.createdAt.HasFourDigitYear →
          ∃ cs', d'.list = .ok cs' ∧ cs'.Perm (c.canonical :: cs.filter (·.memento != c.memento))) ∧
        (¬ c.createdAt.HasFourDigitYear →
          d'.list = .error (.conversion 0 .text (.time c.createdAt.stored))) := by
  have hget := get_save_self h
  have hgood : c.createdAt.HasFourDigitYear → d'.get c.memento = .ok (some c.canonical) := by
    intro hc
    rw [hget, Row.decode_ofConfiguration hc.1 hc.2]
    rfl
  have hbad : ¬ c.createdAt.HasFourDigitYear →
      d'.get c.memento = .error (.conversion 0 .text (.time c.createdAt.stored)) := by
    intro hc
    rw [hget, Row.decode_ofConfiguration_of_not hc]
    rfl
  have hfound : d'.get c.memento = .ok (some c) ↔ c.createdAt.HasFourDigitYear ∧ c.createdAt.IsCanonical := by
    by_cases hc : c.createdAt.HasFourDigitYear
    · rw [hgood hc, Except.ok.injEq, Option.some.injEq, Configuration.canonical_eq_self_iff, and_iff_right hc]
    · rw [hbad hc, iff_false_right fun h => hc h.1]
      exact nofun
  refine ⟨hfound, fun j hj => ?_, hgood, hbad, fun cs hl =>
    ⟨fun hc => list_of_save h hc hl, fun hc => list_of_save_of_not h hc hl⟩⟩
  have hcanonical := Configuration.isCanonical_of_ofJson? hj
  exact ⟨Configuration.canonical_eq_self_iff.2 hcanonical, hfound.trans (and_iff_left hcanonical)⟩

/-- A configuration of the first year that has no sign, made in a leap second. -/
def early : Configuration where
  memento := "a"
  name := "A"
  modes := [.debug, .debug]
  isPrivate := true
  isTransient := false
  createdAt := ⟨⟨0, 2, 29, by decide⟩, ⟨23, 59, 59, 1000000001, by decide⟩⟩

theorem list_fresh : fresh.list = .ok [] :=
  list_eq_ok_iff.2 ⟨⟨true, []⟩, rfl, (fun _ h => nomatch h), by simp [Table.sorted]⟩

/-- It is found again, and listed. -/
theorem get_of_save_early :
    ∃ d, fresh.save early = .ok d ∧ d.get "a" = .ok (some early) ∧ ∃ cs, d.list = .ok cs ∧ cs.Perm [early] := by
  obtain ⟨d, hd⟩ : ∃ d, fresh.save early = .ok d := ⟨_, rfl⟩
  obtain ⟨hget, -, -, -, hlist⟩ := get_iff_and_list_of_save hd
  exact ⟨d, hd, hget.2 (by decide), (hlist [] list_fresh).1 (by decide)⟩

/-- The exchanged form of a configuration that was made too late to be read back. -/
def exchangedLate : Json :=
  .object [("memento", .string "b"), ("name", .string "B"), ("modes", .array [.string "run"]),
    ("private", .bool false), ("transient", .bool false), ("created_at", .string "+10000-02-29T12:00:00Z")]

def late : Configuration where
  memento := "b"
  name := "B"
  modes := [.run]
  isPrivate := false
  isTransient := false
  createdAt := ⟨⟨10000, 2, 29, by decide⟩, ⟨12, 0, 0, 0, by decide⟩⟩

/-- It is saved into a table that was listed before, and from then on neither found nor listed. -/
theorem get_and_list_of_save_late :
    ∃ c d d', Configuration.ofJson? exchangedLate = some c ∧ fresh.save early = .ok d ∧
      (∃ cs, d.list = .ok cs) ∧ d.save c = .ok d' ∧ d'.get c.memento ≠ .ok (some c) ∧ ∀ cs, d'.list ≠ .ok cs := by
  have hlate : ¬ late.createdAt.HasFourDigitYear := by decide
  obtain ⟨d, hd⟩ : ∃ d, fresh.save early = .ok d := ⟨_, rfl⟩
  obtain ⟨t, -, ht⟩ := fullTable_of_save hd
  obtain ⟨d', hd'⟩ : ∃ d', d.save late = .ok d' := ⟨_, save_eq_ok_iff.2 ⟨_, ht, rfl⟩⟩
  obtain ⟨cs, hl, -⟩ := list_of_save hd (by decide) list_fresh
  refine ⟨late, d, d', by decide +kernel, hd, ⟨cs, hl⟩, hd', ?_, ?_⟩
  · rw [get_save_self hd', Row.decode_ofConfiguration_of_not hlate]
    exact fun h => nomatch h
  · intro cs' hl'
    rw [list_of_save_of_not hd' hlate hl] at hl'
    cases hl'

end Database

end RecentLaunches
