/-
A map of configurations, and the databases that hold one. A database at the current version of the schema
all of whose rows can be read is such a map: saving, renaming and deleting a configuration succeed, and do to
the database what they do to the map, where what is saved counts in its canonical form.
-/
import RecentLaunches.Proofs.Database.Rows
import RecentLaunches.Proofs.Store.Keyed

namespace RecentLaunches

/-! ## Maps of configurations -/

/-- Configurations, each under its own memento. -/
structure Registry where
  find : Memento → Option Configuration
  memento_of_find : ∀ {m c}, find m = some c → c.memento = m

namespace Registry

variable {r : Registry} {c : Configuration} {m k : Memento}

/-- No configurations. -/
def empty : Registry :=
  ⟨fun _ => none, fun h => nomatch h⟩

/-- The map with a configuration in the place of the one with its memento. -/
def insert (r : Registry) (c : Configuration) : Registry where
  find m := if m = c.memento then some c else r.find m
  memento_of_find := by
    intro m c' h
    split_ifs at h with hm
    · cases h
      exact hm.symm
    · exact r.memento_of_find h

/-- The map without the configuration of a memento. -/
def erase (r : Registry) (m : Memento) : Registry where
  find k := if k = m then none else r.find k
  memento_of_find := by
    intro k c h
    split_ifs at h
    exact r.memento_of_find h

/-- The map with another name for the configuration of a memento. -/
def rename (r : Registry) (m : Memento) (name : String) : Registry where
  find k := (r.find k).map fun c => if c.memento = m then { c with name := name } else c
  memento_of_find := by
    intro k c h
    obtain ⟨c', hc', rfl⟩ := Option.map_eq_some_iff.1 h
    have hm := r.memento_of_find hc'
    split_ifs <;> exact hm

/-- The map as a store. -/
def store : Store Registry where
  resolve r m := .ok (r.find m)
  delete r c := (.ok (), r.erase c.memento)

theorem find_insert_self (r : Registry) (c : Configuration) : (r.insert c).find c.memento = some c :=
  if_pos rfl

theorem find_insert_of_ne (h : m ≠ c.memento) : (r.insert c).find m = r.find m :=
  if_neg h

theorem find_erase_self (r : Registry) (m : Memento) : (r.erase m).find m = none :=
  if_pos rfl

theorem find_erase_of_ne (h : k ≠ m) : (r.erase m).find k = r.find k :=
  if_neg h

theorem find_rename_eq_none_iff {name : String} : (r.rename m name).find k = none ↔ r.find k = none :=
  Option.map_eq_none_iff

/-- A map has the configurations of a list, and no other ones, where it finds each of them and nothing else. -/
theorem find_eq_some_iff_mem {cs : List Configuration} (hfind : ∀ c ∈ cs, r.find c.memento = some c)
    (hnone : ∀ m, m ∉ cs.map (·.memento) → r.find m = none) : r.find c.memento = some c ↔ c ∈ cs := by
  refine ⟨fun hc => ?_, hfind c⟩
  by_cases hm : c.memento ∈ cs.map (·.memento)
  · obtain ⟨d, hd, hsame⟩ := List.mem_map.1 hm
    rw [← hsame, hfind d hd] at hc
    rwa [← Option.some.inj hc]
  · rw [hnone _ hm] at hc
    cases hc

theorem keyed_store : store.Keyed where
  memento_of_resolve := by
    intro r m c h
    exact r.memento_of_find (Except.ok.inj h)
  same_iff := fun _ a b => beq_iff_eq
  resolve_delete := by
    intro r c m hne
    show Except.ok ((r.erase c.memento).find m) = _
    rw [find_erase_of_ne hne]
    rfl

theorem isGone_store : store.isGone r m = (r.find m).isNone := by
  have hresolve : store.resolve r m = .ok (r.find m) := rfl
  unfold Store.isGone
  rw [hresolve]
  rcases r.find m with _ | c <;> rfl

end Registry

/-! ## Databases -/

namespace Database

variable {d : Database} {r : Registry} {m : Memento}

/-- A database at the current version of the schema. -/
structure IsCurrent (d : Database) : Prop where
  applied : d.applied = fresh.applied
  table : ∃ t, d.table = some t ∧ t.hasTransient = true

theorem isCurrent_fresh : fresh.IsCurrent :=
  ⟨rfl, ⟨true, []⟩, by decide +kernel, rfl⟩

/-- Nothing is left to do. -/
theorem IsCurrent.migrate_eq (h : d.IsCurrent) : d.migrate = (d, .ok ()) := by
  obtain ⟨applied, table, indexed⟩ := d
  obtain rfl : applied = fresh.applied := h.applied
  rfl

theorem migrate_empty : migrate {} = (fresh, .ok ()) := by
  decide +kernel

/-- A current database whose rows are the configurations of a map. -/
structure Holds (d : Database) (r : Registry) : Prop where
  isCurrent : d.IsCurrent
  get : ∀ m, d.get m = .ok (r.find m)

theorem holds_fresh : fresh.Holds .empty where
  isCurrent := isCurrent_fresh
  get := by
    intro m
    have ht : fresh.table = some ⟨true, []⟩ := by decide +kernel
    rw [get_of_ok (fullTable_eq_ok_iff.2 ⟨ht, rfl⟩)]
    rfl

namespace Holds

theorem find?_isSome (h : d.Holds r) {t : Table} (ht : d.table = some t) (m : Memento) :
    (t.find? m).isSome = (r.find m).isSome := by
  obtain ⟨t', ht', hc⟩ := h.isCurrent.table
  rw [ht] at ht'
  cases ht'
  have hget := h.get m
  rw [get_of_ok (fullTable_eq_ok_iff.2 ⟨ht, hc⟩)] at hget
  rcases hr : t.find? m with _ | row
  · rw [hr] at hget
    rw [← Except.ok.inj hget]
    rfl
  · rw [hr] at hget
    rcases hd : row.decode with e | c <;> simp only [hd] at hget
    · cases hget
    · rw [← Except.ok.inj hget]
      rfl

/-- What is saved is found again in its canonical form. -/
theorem save (h : d.Holds r) {c : Configuration} (hy : 0 ≤ c.createdAt.date.year)
    (hy' : c.createdAt.date.year ≤ 9999) : ∃ d', d.save c = .ok d' ∧ d'.Holds (r.insert c.canonical) := by
  obtain ⟨t, ht, hc⟩ := h.isCurrent.table
  have hsave : d.save c = .ok { d with table := some (t.insert (.ofConfiguration c)) } :=
    save_eq_ok_iff.2 ⟨t, fullTable_eq_ok_iff.2 ⟨ht, hc⟩, rfl⟩
  refine ⟨_, hsave, ⟨h.isCurrent.applied, _, rfl, hc⟩, fun m => ?_⟩
  by_cases hm : m = c.memento
  · rw [hm, get_save_self hsave, Row.decode_ofConfiguration hy hy']
    exact congrArg Except.ok (r.find_insert_self c.canonical).symm
  · have hm' : m ≠ c.canonical.memento := hm
    rw [get_save_of_ne hsave hm, h.get, Registry.find_insert_of_ne hm']

/-- Renaming tells whether the configuration is there. -/
theorem rename (h : d.Holds r) (m : Memento) (name : String) :
    ∃ d', d.rename m name = .ok ((r.find m).isSome, d') ∧ d'.Holds (r.rename m name) := by
  obtain ⟨t, ht, hc⟩ := h.isCurrent.table
  have hrename : d.rename m name = .ok ((r.find m).isSome, { d with table := some (t.rename m name) }) :=
    rename_eq_ok_iff.2 ⟨t, ht, (h.find?_isSome ht m).symm, rfl⟩
  refine ⟨_, hrename, ⟨h.isCurrent.applied, _, rfl, hc⟩, fun k => ?_⟩
  rw [get_rename hrename, h.get]
  rfl

/-- Deleting tells whether the configuration was there. -/
theorem delete (h : d.Holds r) (m : Memento) :
    ∃ d', d.delete m = .ok ((r.find m).isSome, d') ∧ d'.Holds (r.erase m) := by
  obtain ⟨t, ht, hc⟩ := h.isCurrent.table
  have hdelete : d.delete m = .ok ((r.find m).isSome, { d with table := some (t.erase m) }) :=
    delete_eq_ok_iff.2 ⟨t, ht, (h.find?_isSome ht m).symm, rfl⟩
  have hfull : fullTable { d with table := some (t.erase m) } = .ok (t.erase m) :=
    fullTable_eq_ok_iff.2 ⟨rfl, hc⟩
  refine ⟨_, hdelete, ⟨h.isCurrent.applied, _, rfl, hc⟩, fun k => ?_⟩
  by_cases hk : k = m
  · rw [hk, Registry.find_erase_self, get_of_ok hfull, t.find?_erase_self]
  · rw [get_delete_of_ne hdelete hk, h.get, Registry.find_erase_of_ne hk]

end Holds

end Database

end RecentLaunches
