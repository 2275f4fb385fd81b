/-
What is found under a memento before and after each change of a database: a change of one row leaves
what is found under every other memento as it is, and a look-up that fails says why in both.
-/
import RecentLaunches.Database
import Mathlib.Tactic

namespace RecentLaunches

/-! ## Rows of a table -/

namespace Table

variable {t : Table} {r : Row} {m k : Memento}

theorem memento_of_find? (h : t.find? m = some r) : r.memento = m := by
  simpa using List.find?_some h

theorem find?_erase_self (t : Table) (m : Memento) : (t.erase m).find? m = none := by
  unfold find? erase
  rw [List.find?_eq_none]
  intro r hr
  simpa using (List.mem_filter.1 hr).2

/-- Rows of other mementos stay. -/
theorem find?_erase_of_ne (t : Table) (h : m ≠ k) : (t.erase k).find? m = t.find? m := by
  unfold find? erase
  rw [List.find?_filter]
  congr 1
  funext r
  by_cases hr : r.memento = m
  · simp [hr, h]
  · simp [hr]

theorem find?_insert_self (t : Table) (r : Row) : (t.insert r).find? r.memento = some r := by
  show ((t.erase r.memento).rows ++ [r]).find? _ = _
  rw [List.find?_append]
  have hn : (t.erase r.memento).rows.find? (·.memento == r.memento) = none := find?_erase_self t _
  rw [hn]
  simp

/-- Rows of other mementos stay. -/
theorem find?_insert_of_ne (t : Table) (h : m ≠ r.memento) : (t.insert r).find? m = t.find? m := by
  show ((t.erase r.memento).rows ++ [r]).find? _ = _
  rw [List.find?_append]
  have he : (t.erase r.memento).rows.find? (·.memento == m) = t.find? m := find?_erase_of_ne t h
  rw [he]
  simp [h.symm]

/-- A row that is renamed keeps its place and its memento. -/
theorem find?_rename (t : Table) (k : Memento) (name : String) (m : Memento) :
    (t.rename k name).find? m =
      (t.find? m).map fun r => if r.memento = k then { r with name := name } else r := by
  unfold find? rename
  rw [List.find?_map]
  congr 2
  funext r
  show ((if r.memento = k then { r with name := name } else r).memento == m) = _
  split <;> rfl

end Table

namespace Table

variable {t : Table} {r : Row}

/-! ## Mementos of a table -/

/-- No two rows have one memento: it is the primary key. -/
def IsKeyed (t : Table) : Prop :=
  (t.rows.map (·.memento)).Nodup

instance (t : Table) : Decidable t.IsKeyed :=
  inferInstanceAs (Decidable (List.Nodup _))

namespace IsKeyed

theorem erase (h : t.IsKeyed) (m : Memento) : (t.erase m).IsKeyed :=
  h.sublist (List.filter_sublist.map _)

theorem insert (h : t.IsKeyed) (r : Row) : (t.insert r).IsKeyed := by
  show (((t.erase r.memento).rows ++ [r]).map (·.memento)).Nodup
  rw [List.map_append, List.nodup_append]
  refine ⟨h.erase r.memento, List.nodup_singleton _, ?_⟩
  -- no row that is left has the memento of the new one
  rintro a ha b hb hab
  obtain ⟨s, hs, rfl⟩ := List.mem_map.1 ha
  have hne : s.memento ≠ r.memento := bne_iff_ne.1 (List.mem_filter.1 hs).2
  exact hne (hab.trans (List.mem_singleton.1 hb))

/-- Changes of rows that leave their mementos leave the key. -/
theorem map {f : Row → Row} (h : t.IsKeyed) (hf : ∀ r, (f r).memento = r.memento) (hasTransient : Bool) :
    IsKeyed ⟨hasTransient, t.rows.map f⟩ := by
  show ((t.rows.map f).map (·.memento)).Nodup
  rw [List.map_map]
  have hmementos : (fun r : Row => r.memento) ∘ f = fun r => r.memento := funext hf
  rw [hmementos]
  exact h

theorem rename (h : t.IsKeyed) (m : Memento) (name : String) : (t.rename m name).IsKeyed := by
  refine h.map (fun r => ?_) t.hasTransient
  split_ifs <;> rfl

theorem addTransient (h : t.IsKeyed) : t.addTransient.IsKeyed :=
  h.map (f := fun r => { r with isTransient := .integer 0 }) (fun _ => rfl) true

/-- The only row of a memento is the one that is found. -/
theorem find?_of_mem (h : t.IsKeyed) (hr : r ∈ t.rows) : t.find? r.memento = some r := by
  unfold find?
  rcases hf : t.rows.find? (·.memento == r.memento) with _ | s
  · rw [List.find?_eq_none] at hf
    simpa using hf r hr
  · have hs : s.memento = r.memento := memento_of_find? hf
    rw [hf, List.inj_on_of_nodup_map h (List.mem_of_find?_eq_some hf) hr hs]

end IsKeyed

end Table

/-! ## Reading a row -/

namespace Row

/-- A row is read exactly if all of its values have a meaning. -/
theorem decode_eq_ok_iff {r : Row} {c : Configuration} :
    r.decode = .ok c ↔ ∃ modes isPrivate isTransient createdAt,
      StoredModes.decode r.modes = some modes ∧ r.isPrivate.flag = some isPrivate ∧
      r.isTransient.flag = some isTransient ∧ Timestamp.readStored r.createdAt = some createdAt ∧
      c = ⟨r.memento, r.name, modes, isPrivate, isTransient, createdAt⟩ := by
  unfold decode converted flagged
  simp only [bind, Except.bind, pure, Except.pure]
  rcases StoredModes.decode r.modes with _ | modes
  · simp
  rcases r.isPrivate.flag with _ | isPrivate
  · simp
  rcases r.isTransient.flag with _ | isTransient
  · simp
  rcases Timestamp.readStored r.createdAt with _ | createdAt
  · simp
  · simp [eq_comm]

theorem memento_of_decode {r : Row} {c : Configuration} (h : r.decode = .ok c) :
    c.memento = r.memento := by
  obtain ⟨_, _, _, _, -, -, -, -, rfl⟩ := decode_eq_ok_iff.1 h
  rfl

/-- The name has no part in whether a row can be read. -/
theorem decode_withName (r : Row) (name : String) :
    ({ r with name := name } : Row).decode = r.decode.map fun c => { c with name := name } := by
  unfold decode
  simp only [bind, Except.bind, pure, Except.pure]
  rcases converted .modes StoredModes.decode r.modes with _ | modes
  · rfl
  rcases flagged 3 "private" r.isPrivate with _ | isPrivate
  · rfl
  rcases flagged 4 "transient" r.isTransient with _ | isTransient
  · rfl
  rcases converted .time Timestamp.readStored r.createdAt with _ | createdAt <;> rfl

theorem decode_rename (r : Row) (k : Memento) (name : String) :
    (if r.memento = k then { r with name := name } else r).decode =
      r.decode.map fun c => if c.memento = k then { c with name := name } else c := by
  rcases hd : r.decode with e | c
  · split_ifs
    · rw [decode_withName, hd]
      rfl
    · exact hd
  · have hc : c.memento = r.memento := memento_of_decode hd
    show _ = Except.ok (if c.memento = k then _ else c)
    rw [hc]
    split_ifs
    · rw [decode_withName, hd, ← hc]
      rfl
    · exact hd

end Row

/-! ## Looking up -/

namespace Database

variable {d d' : Database} {m k : Memento}

theorem fullTable_eq_ok_iff {t : Table} :
    d.fullTable = .ok t ↔ d.table = some t ∧ t.hasTransient = true := by
  unfold fullTable configurations
  rcases ht : d.table with _ | u
  · constructor
    · intro h; cases h
    · rintro ⟨h, -⟩; cases h
  show (if u.hasTransient then Except.ok u else _) = _ ↔ _
  split_ifs with hu
  · constructor
    · intro h; cases h; exact ⟨rfl, hu⟩
    · rintro ⟨h, -⟩; cases h; rfl
  · constructor
    · intro h; cases h
    · rintro ⟨h, h'⟩; cases h; exact absurd h' hu

theorem get_of_error {e : DatabaseFault} (h : d.fullTable = .error e) (m : Memento) :
    d.get m = .error e := by
  unfold get
  rw [h]
  rfl

theorem get_of_ok {t : Table} (h : d.fullTable = .ok t) (m : Memento) :
    d.get m = match t.find? m with
      | some r => r.decode.map some
      | none => .ok none := by
  unfold get
  rw [h]
  simp only [bind, Except.bind, pure, Except.pure]
  rcases t.find? m with _ | r
  · rfl
  · simp only
    rcases r.decode with e | c <;> rfl

theorem get_of_noColumn {t : Table} (h : d.table = some t) (hc : t.hasTransient = false) (m : Memento) :
    d.get m = .error (.noColumn transientName) := by
  refine get_of_error ?_ m
  unfold fullTable configurations
  rw [h]
  show (if t.hasTransient then _ else _) = _
  rw [hc]
  rfl

/-- Two databases with the same row under a memento, and the same columns, answer alike. -/
theorem get_congr {t t' : Table} (h : d.table = some t) (h' : d'.table = some t')
    (hc : t'.hasTransient = t.hasTransient) (hf : t'.find? m = t.find? m) : d'.get m = d.get m := by
  rcases ht : t.hasTransient with _ | _
  · rw [get_of_noColumn h ht, get_of_noColumn h' (hc.trans ht)]
  · rw [get_of_ok (fullTable_eq_ok_iff.2 ⟨h, ht⟩), get_of_ok (fullTable_eq_ok_iff.2 ⟨h', hc.trans ht⟩), hf]

/-- A configuration is found under its own memento. -/
theorem memento_of_get {c : Configuration} (h : d.get m = .ok (some c)) : c.memento = m := by
  rcases hf : d.fullTable with e | t
  · rw [get_of_error hf] at h; cases h
  rw [get_of_ok hf] at h
  rcases hr : t.find? m with _ | r <;> rw [hr] at h
  · cases h
  · rcases hd : r.decode with e | c' <;> simp only [hd] at h <;> cases h
    rw [Row.memento_of_decode hd, Table.memento_of_find? hr]

/-! ## Changes of one row -/

theorem delete_eq_ok_iff {b : Bool} :
    d.delete k = .ok (b, d') ↔
      ∃ t, d.table = some t ∧ b = (t.find? k).isSome ∧ d' = { d with table := some (t.erase k) } := by
  unfold delete configurations
  rcases d.table with _ | t
  · constructor
    · intro h; cases h
    · rintro ⟨t, h, -⟩; cases h
  · constructor
    · intro h; cases h; exact ⟨t, rfl, rfl, rfl⟩
    · rintro ⟨u, h, rfl, rfl⟩; cases h; rfl

theorem rename_eq_ok_iff {b : Bool} {name : String} :
    d.rename k name = .ok (b, d') ↔
      ∃ t, d.table = some t ∧ b = (t.find? k).isSome ∧ d' = { d with table := some (t.rename k name) } := by
  unfold rename configurations
  rcases d.table with _ | t
  · constructor
    · intro h; cases h
    · rintro ⟨t, h, -⟩; cases h
  · constructor
    · intro h; cases h; exact ⟨t, rfl, rfl, rfl⟩
    · rintro ⟨u, h, rfl, rfl⟩; cases h; rfl

theorem save_eq_ok_iff {c : Configuration} :
    d.save c = .ok d' ↔
      ∃ t, d.fullTable = .ok t ∧ d' = { d with table := some (t.insert (.ofConfiguration c)) } := by
  unfold save put
  rcases d.fullTable with e | t
  · constructor
    · intro h; cases h
    · rintro ⟨t, h, -⟩; cases h
  · constructor
    · intro h; cases h; exact ⟨t, rfl, rfl⟩
    · rintro ⟨u, h, rfl⟩; cases h; rfl

/-- Deleting one configuration leaves the others. -/
theorem get_delete_of_ne {b : Bool} (h : d.delete k = .ok (b, d')) (hne : m ≠ k) : d'.get m = d.get m := by
  obtain ⟨t, ht, -, rfl⟩ := delete_eq_ok_iff.1 h
  exact get_congr ht rfl rfl (t.find?_erase_of_ne hne)

/-- Nothing is found under the memento of a deleted configuration. -/
theorem get_delete_self {b : Bool} (h : d.delete k = .ok (b, d')) (c : Configuration) :
    d'.get k ≠ .ok (some c) := by
  obtain ⟨t, ht, -, rfl⟩ := delete_eq_ok_iff.1 h
  intro hc
  rcases hf : fullTable { d with table := some (t.erase k) } with e | u
  · rw [get_of_error hf] at hc
    cases hc
  · rw [get_of_ok hf] at hc
    obtain ⟨hu, -⟩ := fullTable_eq_ok_iff.1 hf
    cases hu
    rw [t.find?_erase_self k] at hc
    cases hc

/-- What is found can be deleted, and is gone then. -/
theorem exists_delete_of_get {c : Configuration} (h : d.get k = .ok (some c)) :
    ∃ b d', d.delete k = .ok (b, d') ∧ d'.get k = .ok none := by
  rcases hf : d.fullTable with e | t
  · rw [get_of_error hf] at h
    cases h
  obtain ⟨ht, hc⟩ := fullTable_eq_ok_iff.1 hf
  have hfull : fullTable { d with table := some (t.erase k) } = .ok (t.erase k) :=
    fullTable_eq_ok_iff.2 ⟨rfl, hc⟩
  refine ⟨_, _, delete_eq_ok_iff.2 ⟨t, ht, rfl, rfl⟩, ?_⟩
  rw [get_of_ok hfull, t.find?_erase_self]

/-- Saving one configuration leaves the others. -/
theorem get_save_of_ne {c : Configuration} (h : d.save c = .ok d') (hne : m ≠ c.memento) :
    d'.get m = d.get m := by
  obtain ⟨t, ht, rfl⟩ := save_eq_ok_iff.1 h
  exact get_congr (fullTable_eq_ok_iff.1 ht).1 rfl rfl (t.find?_insert_of_ne hne)

/-- What is found under the memento of a saved configuration is what its row is read as. -/
theorem get_save_self {c : Configuration} (h : d.save c = .ok d') :
    d'.get c.memento = (Row.ofConfiguration c).decode.map some := by
  obtain ⟨t, ht, rfl⟩ := save_eq_ok_iff.1 h
  have hf : fullTable { d with table := some (t.insert (.ofConfiguration c)) } =
      .ok (t.insert (.ofConfiguration c)) :=
    fullTable_eq_ok_iff.2 ⟨rfl, (fullTable_eq_ok_iff.1 ht).2⟩
  rw [get_of_ok hf]
  have hr : (t.insert (.ofConfiguration c)).find? c.memento = some (.ofConfiguration c) :=
    t.find?_insert_self (.ofConfiguration c)
  rw [hr]

/-- A renaming changes the name of one configuration and nothing else. -/
theorem get_rename {b : Bool} {name : String} (h : d.rename k name = .ok (b, d')) (m : Memento) :
    d'.get m = (d.get m).map (Option.map fun c => if c.memento = k then { c with name := name } else c) := by
  obtain ⟨t, ht, -, rfl⟩ := rename_eq_ok_iff.1 h
  rcases hc : t.hasTransient with _ | _
  · have before := get_of_noColumn ht hc m
    have after := get_of_noColumn (d := { d with table := some (t.rename k name) }) rfl hc m
    rw [before, after]
    rfl
  · rw [get_of_ok (fullTable_eq_ok_iff.2 ⟨ht, hc⟩),
      get_of_ok (d := { d with table := some (t.rename k name) }) (fullTable_eq_ok_iff.2 ⟨rfl, hc⟩),
      Table.find?_rename]
    rcases hr : t.find? m with _ | r
    · rfl
    show Except.map some (if r.memento = k then { r with name := name } else r).decode =
      Except.map _ (Except.map some r.decode)
    rw [Row.decode_rename]
    rcases r.decode with e | c <;> rfl

end Database

end RecentLaunches
