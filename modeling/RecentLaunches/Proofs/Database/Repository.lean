/-
The repository of configurations. Operations on a database, carried out one after the other from a new one,
give the results that a map of configurations gives: every row is that of one configuration of the map, each
under its own memento, and all of them can be read back. The map takes what is saved in its canonical form, so that
a leap second which is not at the end of its minute, and no other time, comes back as another one.
-/
import RecentLaunches.Proofs.Database.Listing
import RecentLaunches.Proofs.Database.Registry

namespace RecentLaunches

/-! ## Operations -/

/-- An operation on stored configurations. Discarding is what deleting is to a store: it does not tell whether
anything was there. -/
inductive Operation
  | save (c : Configuration)
  | get (m : Memento)
  | resolve (m : Memento)
  | list
  | rename (m : Memento) (name : String)
  | delete (m : Memento)
  | discard (c : Configuration)
  deriving DecidableEq

/-- The operation with what it saves in its canonical form. -/
def Operation.canonical : Operation → Operation
  | .save c => .save c.canonical
  | o => o

theorem Operation.map_canonical {os : List Operation} (h : ∀ c, .save c ∈ os → c.createdAt.IsCanonical) :
    os.map canonical = os := by
  refine (List.map_congr_left fun o ho => ?_).trans os.map_id
  cases o with
  | save c => exact congrArg save (Configuration.canonical_eq_self_iff.2 (h c ho))
  | _ => rfl

inductive Finding
  | done
  | one (c : Option Configuration)
  | all (cs : List Configuration)
  | whether (wasThere : Bool)
  deriving DecidableEq

namespace Database

/-- The result of a change, and the database after it. One that fails changes nothing. -/
def changed {α : Type} (d : Database) (finding : α → Finding) (e : Except DatabaseFault (α × Database)) :
    Except Fault Finding × Database :=
  match e with
  | .ok (a, d') => (.ok (finding a), d')
  | .error e => (.error (.database e), d)

/-- The result of an operation, and the database after it. -/
def carryOut (d : Database) : Operation → Except Fault Finding × Database
  | .save c => d.changed (fun _ => .done) ((d.save c).map ((), ·))
  | .get m => (((d.get m).map .one).mapError .database, d)
  | .resolve m => ((store.resolve d m).map .one, d)
  | .list => ((d.list.map .all).mapError .database, d)
  | .rename m name => d.changed .whether (d.rename m name)
  | .delete m => d.changed .whether (d.delete m)
  | .discard c => ((store.delete d c).1.map fun _ => .done, (store.delete d c).2)

/-- The results of some operations, one after the other. -/
def results : Database → List Operation → List (Except Fault Finding)
  | _, [] => []
  | d, o :: rest => (d.carryOut o).1 :: results (d.carryOut o).2 rest

end Database

namespace Registry

/-- All configurations of a map, each once, in the order in which rows are listed. -/
structure Lists (r : Registry) (cs : List Configuration) : Prop where
  nodup : cs.Nodup
  mem_iff : ∀ c, c ∈ cs ↔ r.find c.memento = some c
  sorted : cs.Pairwise fun a b => Row.le (.ofConfiguration a) (.ofConfiguration b) = true

def Finds (r : Registry) : Operation → Finding → Prop
  | .save _, f => f = .done
  | .get m, f => f = .one (r.find m)
  | .resolve m, f => f = .one (r.find m)
  | .list, f => ∃ cs, f = .all cs ∧ r.Lists cs
  | .rename m _, f => f = .whether (r.find m).isSome
  | .delete m, f => f = .whether (r.find m).isSome
  | .discard _, f => f = .done

def after (r : Registry) : Operation → Registry
  | .save c => r.insert c
  | .get _ => r
  | .resolve _ => r
  | .list => r
  | .rename m name => r.rename m name
  | .delete m => r.erase m
  | .discard c => r.erase c.memento

/-- What some operations find in a map, one after the other. -/
def FindsAll : Registry → List Operation → List Finding → Prop
  | _, [], fs => fs = []
  | _, _ :: _, [] => False
  | r, o :: rest, f :: fs => r.Finds o f ∧ FindsAll (r.after o) rest fs

theorem findsAll_cons_iff {r : Registry} {o : Operation} {rest : List Operation} {fs : List Finding} :
    r.FindsAll (o :: rest) fs ↔ ∃ f, r.Finds o f ∧ ∃ gs, (r.after o).FindsAll rest gs ∧ fs = f :: gs := by
  cases fs with
  | nil => simp [FindsAll]
  | cons f fs => simp [FindsAll, and_comm]

end Registry

/-! ## Rows that were saved -/

namespace Table

variable {t : Table} {m : Memento}

/-- A table whose rows were all saved in years of four digits, each under a memento of its own. They are those of
configurations in canonical form. -/
structure IsSaved (t : Table) : Prop where
  nodup : (t.rows.map (·.memento)).Nodup
  saved : ∀ r ∈ t.rows, ∃ c, r = .ofConfiguration c ∧ c.createdAt.HasFourDigitYear ∧ c.createdAt.IsCanonical

namespace IsSaved

theorem isKeyed (h : t.IsSaved) : t.IsKeyed :=
  h.nodup

theorem erase (h : t.IsSaved) (m : Memento) : (t.erase m).IsSaved where
  nodup := h.isKeyed.erase m
  saved := fun r hr => h.saved r (List.mem_of_mem_filter hr)

theorem insert (h : t.IsSaved) {c : Configuration} (hc : c.createdAt.HasFourDigitYear) :
    (t.insert (.ofConfiguration c)).IsSaved where
  nodup := h.isKeyed.insert (.ofConfiguration c)
  saved := by
    intro r hr
    rcases List.mem_append.1 hr with hr | hr
    · exact (h.erase c.memento).saved r hr
    · refine ⟨c.canonical, ?_, hc, c.createdAt.isCanonical_canonical⟩
      rw [Row.ofConfiguration_canonical]
      exact List.mem_singleton.1 hr

theorem rename (h : t.IsSaved) (m : Memento) (name : String) : (t.rename m name).IsSaved where
  nodup := h.isKeyed.rename m name
  saved := by
    intro r hr
    obtain ⟨s, hs, rfl⟩ := List.mem_map.1 hr
    obtain ⟨c, rfl, hc⟩ := h.saved s hs
    split_ifs
    · exact ⟨{ c with name := name }, rfl, hc⟩
    · exact ⟨c, rfl, hc⟩

theorem decode (h : t.IsSaved) {r : Row} (hr : r ∈ t.rows) : ∃ c, r = .ofConfiguration c ∧ r.decode = .ok c := by
  obtain ⟨c, rfl, hc, hcanonical⟩ := h.saved r hr
  have hdecode := Row.decode_ofConfiguration hc.1 hc.2
  rw [Configuration.canonical_eq_self_iff.2 hcanonical] at hdecode
  exact ⟨c, rfl, hdecode⟩

/-- The configurations of the rows in their order are just the rows. -/
theorem map_ofConfiguration (h : t.IsSaved) :
    (t.sorted.filterMap Row.configuration?).map .ofConfiguration = t.sorted := by
  have hall : ∀ r ∈ t.sorted, ∃ c, r = .ofConfiguration c ∧ r.decode = .ok c :=
    fun r hr => h.decode (mem_sorted.1 hr)
  generalize t.sorted = rows at hall
  induction rows with
  | nil => rfl
  | cons r rows ih =>
    obtain ⟨c, hr, hd⟩ := hall r List.mem_cons_self
    rw [List.filterMap_cons_some (Row.configuration?_eq_some_iff.2 hd), List.map_cons, ← hr,
      ih fun s hs => hall s (List.mem_cons_of_mem _ hs)]

end IsSaved

end Table

/-! ## Databases -/

namespace Database

variable {d d' : Database} {r : Registry}

/-- A database that holds a map in rows that were saved. -/
structure Keeps (d : Database) (r : Registry) : Prop extends d.Holds r where
  isSaved : ∀ t, d.table = some t → t.IsSaved

theorem keeps_fresh : fresh.Keeps .empty where
  toHolds := holds_fresh
  isSaved := by
    intro t ht
    have hfresh : fresh.table = some ⟨true, []⟩ := by decide +kernel
    rw [hfresh] at ht
    cases ht
    exact ⟨List.nodup_nil, fun _ h => nomatch h⟩

namespace Keeps

theorem save (h : d.Keeps r) {c : Configuration} (hc : c.createdAt.HasFourDigitYear) :
    ∃ d', d.save c = .ok d' ∧ d'.Keeps (r.insert c.canonical) := by
  obtain ⟨d', hd', hholds⟩ := h.toHolds.save hc.1 hc.2
  obtain ⟨t, ht, rfl⟩ := save_eq_ok_iff.1 hd'
  refine ⟨_, hd', hholds, ?_⟩
  rintro u ⟨⟩
  exact (h.isSaved t (fullTable_eq_ok_iff.1 ht).1).insert hc

theorem rename (h : d.Keeps r) (m : Memento) (name : String) :
    ∃ d', d.rename m name = .ok ((r.find m).isSome, d') ∧ d'.Keeps (r.rename m name) := by
  obtain ⟨d', hd', hholds⟩ := h.toHolds.rename m name
  obtain ⟨t, ht, -, rfl⟩ := rename_eq_ok_iff.1 hd'
  refine ⟨_, hd', hholds, ?_⟩
  rintro u ⟨⟩
  exact (h.isSaved t ht).rename m name

theorem delete (h : d.Keeps r) (m : Memento) :
    ∃ d', d.delete m = .ok ((r.find m).isSome, d') ∧ d'.Keeps (r.erase m) := by
  obtain ⟨d', hd', hholds⟩ := h.toHolds.delete m
  obtain ⟨t, ht, -, rfl⟩ := delete_eq_ok_iff.1 hd'
  refine ⟨_, hd', hholds, ?_⟩
  rintro u ⟨⟩
  exact (h.isSaved t ht).erase m

/-- The configurations that are found are those of the rows. -/
theorem find_eq_some_iff (h : d.Keeps r) {t : Table} (ht : d.fullTable = .ok t) {c : Configuration} :
    r.find c.memento = some c ↔ ∃ row ∈ t.rows, row.decode = .ok c := by
  have hsaved := h.isSaved t (fullTable_eq_ok_iff.1 ht).1
  have hget := h.get c.memento
  rw [get_of_ok ht] at hget
  constructor
  · intro hc
    rcases hf : t.find? c.memento with _ | row
    · rw [hf, hc] at hget
      cases hget
    · refine ⟨row, List.mem_of_find?_eq_some hf, ?_⟩
      rw [hf, hc] at hget
      rcases hd : row.decode with e | c' <;> simp only [hd] at hget <;> cases hget
      rfl
  · rintro ⟨row, hrow, hd⟩
    rw [Row.memento_of_decode hd, hsaved.isKeyed.find?_of_mem hrow] at hget
    simp only [hd] at hget
    rw [Row.memento_of_decode hd]
    exact (Except.ok.inj hget).symm

/-- The list has every configuration of the map once. -/
theorem list (h : d.Keeps r) : ∃ cs, d.list = .ok cs ∧ r.Lists cs := by
  obtain ⟨t, ht, hc⟩ := h.isCurrent.table
  have hfull : d.fullTable = .ok t := fullTable_eq_ok_iff.2 ⟨ht, hc⟩
  have hsaved := h.isSaved t ht
  have hrows := hsaved.map_ofConfiguration
  refine ⟨_, list_eq_ok_iff.2 ⟨t, hfull, fun row hrow => ?_, rfl⟩, ?_, fun c => ?_, ?_⟩
  · obtain ⟨c, -, hd⟩ := hsaved.decode hrow
    exact ⟨c, hd⟩
  · have hnodup : t.rows.Nodup := .of_map (·.memento) hsaved.nodup
    rw [← t.perm_sorted.nodup_iff, ← hrows] at hnodup
    exact .of_map Row.ofConfiguration hnodup
  · rw [h.find_eq_some_iff hfull, List.mem_filterMap]
    simp only [Table.mem_sorted, Row.configuration?_eq_some_iff]
  · have hsorted := t.pairwise_sorted
    rw [← hrows] at hsorted
    exact List.pairwise_map.1 hsorted

end Keeps

/-! ## Sequences of operations -/

/-- An operation is answered as by the map, and leaves a database that holds the map after it. -/
theorem Keeps.carryOut (h : d.Keeps r) {o : Operation} (ho : ∀ c, o = .save c → c.createdAt.HasFourDigitYear) :
    ∃ f, (d.carryOut o).1 = .ok f ∧ r.Finds o.canonical f ∧ (d.carryOut o).2.Keeps (r.after o.canonical) := by
  cases o with
  | save c =>
    obtain ⟨d', hd', hkeeps⟩ := h.save (ho c rfl)
    refine ⟨.done, ?_, rfl, ?_⟩ <;> simp only [Database.carryOut, hd']
    · rfl
    · exact hkeeps
  | get m =>
    refine ⟨.one (r.find m), ?_, rfl, h⟩
    simp only [Database.carryOut, h.get]
    rfl
  | resolve m =>
    refine ⟨.one (r.find m), ?_, rfl, h⟩
    simp only [Database.carryOut, store, h.get]
    rfl
  | list =>
    obtain ⟨cs, hcs, hlists⟩ := h.list
    refine ⟨.all cs, ?_, ⟨cs, rfl, hlists⟩, h⟩
    simp only [Database.carryOut, hcs]
    rfl
  | rename m name =>
    obtain ⟨d', hd', hkeeps⟩ := h.rename m name
    refine ⟨.whether (r.find m).isSome, ?_, rfl, ?_⟩ <;> simp only [Database.carryOut, hd']
    · rfl
    · exact hkeeps
  | delete m =>
    obtain ⟨d', hd', hkeeps⟩ := h.delete m
    refine ⟨.whether (r.find m).isSome, ?_, rfl, ?_⟩ <;> simp only [Database.carryOut, hd']
    · rfl
    · exact hkeeps
  | discard c =>
    obtain ⟨d', hd', hkeeps⟩ := h.delete c.memento
    refine ⟨.done, ?_, rfl, ?_⟩ <;> simp only [Database.carryOut, store, hd']
    · rfl
    · exact hkeeps

theorem Keeps.results (h : d.Keeps r) {os : List Operation}
    (hos : ∀ c, .save c ∈ os → c.createdAt.HasFourDigitYear) :
    ∃ fs, d.results os = fs.map .ok ∧ r.FindsAll (os.map Operation.canonical) fs := by
  induction os generalizing d r with
  | nil => exact ⟨[], rfl, rfl⟩
  | cons o os ih =>
    -- the database that an operation leaves holds the map that the next one is compared with
    obtain ⟨f, hf, hfinds, hkeeps⟩ := h.carryOut (o := o) fun c hc => hos c (hc ▸ List.mem_cons_self)
    obtain ⟨fs, hfs, hrest⟩ := ih hkeeps fun c hc => hos c (List.mem_cons_of_mem _ hc)
    refine ⟨f :: fs, ?_, hfinds, hrest⟩
    show (d.carryOut o).1 :: (d.carryOut o).2.results os = _
    rw [hf, hfs, List.map_cons]

/-- Whether a new database gives what a map of configurations gives that takes the operations in turn. -/
def FindsAsMap (os : List Operation) : Prop :=
  ∃ fs, fresh.results os = fs.map .ok ∧ Registry.empty.FindsAll os fs

theorem findsAsMap {os : List Operation} (hos : ∀ c, .save c ∈ os → c.createdAt.HasFourDigitYear)
    (hcanonical : ∀ c, .save c ∈ os → c.createdAt.IsCanonical) : FindsAsMap os := by
  have hresults := keeps_fresh.results hos
  rw [Operation.map_canonical hcanonical] at hresults
  exact hresults

/-- What is saved and then looked up tells whether it was canonical. -/
theorem findsAsMap_save_get_iff {c : Configuration} (hc : c.createdAt.HasFourDigitYear) :
    FindsAsMap [.save c, .get c.memento] ↔ c.createdAt.IsCanonical := by
  have hos : ∀ x, .save x ∈ [Operation.save c, .get c.memento] → x = c := by
    intro x hx
    simpa using hx
  constructor
  · rintro ⟨fs, hfs, hfinds⟩
    obtain ⟨gs, hgs, hgfinds⟩ := keeps_fresh.results fun x hx => hos x hx ▸ hc
    have hsame : fs = gs := List.map_injective_iff.2 (fun _ _ => Except.ok.inj) (hfs.symm.trans hgs)
    have hfound : ∀ x : Configuration, x.memento = c.memento →
        Registry.empty.FindsAll [.save x, .get c.memento] fs → fs = [.done, .one (some x)] := by
      intro x hx h
      obtain ⟨_, rfl, _, ⟨_, rfl, _, rfl, rfl⟩, rfl⟩ := by
        simpa only [Registry.findsAll_cons_iff] using h
      show [Finding.done, .one ((Registry.empty.insert x).find c.memento)] = _
      rw [← hx, Registry.find_insert_self]
    have hplain := hfound c rfl hfinds
    rw [hfound c.canonical rfl (hsame ▸ hgfinds)] at hplain
    exact Configuration.canonical_eq_self_iff.1 (by simpa using hplain)
  · exact fun hcanonical => findsAsMap (fun x hx => hos x hx ▸ hc) fun x hx => hos x hx ▸ hcanonical

/-- Operations on a new database that save configurations of years of four digits all succeed, and give what a
map of configurations gives that takes them in turn, with what is saved in its canonical form. So they give what a map
gives that takes them as they are where all that is saved is canonical; and a configuration that is not is found again
as another one. -/
theorem results_fresh (os : List Operation) (hos : ∀ c, .save c ∈ os → c.createdAt.HasFourDigitYear) :
    (∃ fs, fresh.results os = fs.map .ok ∧ Registry.empty.FindsAll (os.map Operation.canonical) fs) ∧
      ((∀ c, .save c ∈ os → c.createdAt.IsCanonical) → FindsAsMap os) ∧
      ∀ c, c.createdAt.HasFourDigitYear →
        (FindsAsMap [.save c, .get c.memento] ↔ c.createdAt.IsCanonical) :=
  ⟨keeps_fresh.results hos, findsAsMap hos, fun _ => findsAsMap_save_get_iff⟩

/-- A configuration is saved and gets another name; it is found and listed until it is deleted. -/
def stay : List Operation :=
  [.save early, .rename "a" "β", .get "a", .list, .delete "a", .delete "a", .discard early, .resolve "a"]

def renamed : Configuration :=
  { early with name := "β" }

theorem results_fresh_stay :
    (∀ c, .save c ∈ stay → c.createdAt.HasFourDigitYear) ∧ (∀ c, .save c ∈ stay → c.createdAt.IsCanonical) ∧
      fresh.results stay =
        [.ok .done, .ok (.whether true), .ok (.one renamed), .ok (.all [renamed]), .ok (.whether true),
          .ok (.whether false), .ok .done, .ok (.one none)] := by
  have hos : ∀ c, .save c ∈ stay → c = early := by
    intro c hc
    simpa [stay] using hc
  have hyears : ∀ c, .save c ∈ stay → c.createdAt.HasFourDigitYear := fun c hc => hos c hc ▸ by decide
  have hcanonical : ∀ c, .save c ∈ stay → c.createdAt.IsCanonical := fun c hc => hos c hc ▸ by decide
  refine ⟨hyears, hcanonical, ?_⟩
  obtain ⟨fs, hfs, hfinds⟩ := (results_fresh stay hyears).2.1 hcanonical
  simp only [stay, Registry.findsAll_cons_iff, Registry.Finds, Registry.after, Registry.FindsAll,
    exists_eq_left] at hfinds
  obtain ⟨_, ⟨_, ⟨_, ⟨_, ⟨cs, rfl, hlists⟩, rfl⟩, rfl⟩, rfl⟩, rfl⟩ := hfinds
  have hcs : cs = [renamed] := by
    refine List.perm_singleton.1 ((List.perm_ext_iff_of_nodup hlists.nodup (List.nodup_singleton _)).2 fun c => ?_)
    refine (hlists.mem_iff c).trans (Registry.find_eq_some_iff_mem (by decide) fun m hm => ?_)
    have hm' : m ≠ "a" := fun h => hm (List.mem_singleton.2 h)
    simp [Registry.insert, Registry.rename, Registry.empty, early, hm']
  rw [hfs, hcs]
  rfl

/-- A configuration of a leap second after the tenth second of a minute. -/
def astray : Configuration :=
  { early with createdAt := ⟨⟨2015, 6, 30, by decide⟩, ⟨12, 0, 10, 1500000000, by decide⟩⟩ }

/-- It comes back with the eleventh second, and is another configuration than the one that a map gives. -/
theorem not_findsAsMap_astray :
    astray.createdAt.HasFourDigitYear ∧
      fresh.results [.save astray, .get "a"] =
        [.ok .done, .ok (.one (some { astray with
          createdAt := ⟨⟨2015, 6, 30, by decide⟩, ⟨12, 0, 11, 500000000, by decide⟩⟩ }))] ∧
      ¬FindsAsMap [.save astray, .get "a"] := by
  have hyear : astray.createdAt.HasFourDigitYear := by decide
  refine ⟨hyear, by decide +kernel, ?_⟩
  rw [show "a" = astray.memento from rfl, findsAsMap_save_get_iff hyear]
  decide

end Database

end RecentLaunches
