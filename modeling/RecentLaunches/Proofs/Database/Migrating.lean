/-
Opening a database that is not up to date, and opening it again. Opening carries out the statements of the
migrations above the version, each by itself, and may end between any two of them: because one is refused, or
because the process stops. The next opening begins with the migration that was under way, and goes on where the
last one ended unless it meets a statement that cannot be carried out twice.
-/
import Mathlib.Data.List.DropRight
import RecentLaunches.Proofs.Database.Schema

namespace RecentLaunches

/-! ## Migrations under way -/

namespace Migration

variable {ms : List Migration} {p q part rest : List Statement}

def record (m : Migration) : Applied :=
  ⟨m.version, m.description⟩

theorem ordered_all : all.Pairwise fun m n => m.version < n.version := by
  decide

theorem version_le_maxVersion : ∀ m ∈ all, (m.version : Int) ≤ Database.maxVersion := by
  decide

/-- Only the last step of a migration makes a record. -/
theorem notes_of_mem_statements : ∀ m ∈ all, ∀ x ∈ m.statements, x.notes = [] := by
  decide

theorem two_le_of_pending_eq_nil {version : Nat} (h : pending version = []) : 2 ≤ version := by
  match version with
  | 0 => cases h
  | 1 => cases h
  | _ + 2 => exact Nat.le_add_left ..

theorem flatMap_notes_of_forall (h : ∀ x ∈ p, x.notes = []) : p.flatMap Statement.notes = [] :=
  List.flatMap_eq_nil_iff.2 h

theorem flatMap_notes_steps {m : Migration} (hm : m ∈ all) : m.steps.flatMap Statement.notes = [m.record] := by
  unfold steps
  rw [List.flatMap_append, flatMap_notes_of_forall (notes_of_mem_statements m hm)]
  rfl

theorem flatMap_notes_flatMap_steps (h : ∀ m ∈ ms, m ∈ all) :
    (ms.flatMap steps).flatMap Statement.notes = ms.map record := by
  induction ms with
  | nil => rfl
  | cons m ms ih =>
    obtain ⟨hm, hms⟩ := List.forall_mem_cons.1 h
    rw [List.flatMap_cons, List.flatMap_append, flatMap_notes_steps hm, ih hms]
    rfl

/-- The statements since the last record: those of the migration that is under way. -/
def underWay (p : List Statement) : List Statement :=
  p.rtakeWhile (·.notes.isEmpty)

theorem underWay_append (h : ∀ x ∈ part, x.notes = []) (q : List Statement) :
    underWay (q ++ part) = underWay q ++ part := by
  have hpart : ∀ x ∈ part.reverse, x.notes.isEmpty = true := by
    intro x hx
    rw [h x (List.mem_reverse.1 hx)]
    rfl
  unfold underWay List.rtakeWhile
  rw [List.reverse_append, List.takeWhile_append_of_pos hpart, List.reverse_append, List.reverse_reverse]

/-- No migration is under way between two of them. -/
theorem underWay_flatMap_steps (q : List Statement) {m : Migration} (ms : List Migration) :
    underWay (q ++ (m :: ms).flatMap steps) = [] := by
  obtain ⟨done, n, hms⟩ : ∃ done n, m :: ms = done ++ [n] :=
    ⟨_, _, (List.dropLast_append_getLast (List.cons_ne_nil m ms)).symm⟩
  have hlast : q ++ (m :: ms).flatMap steps = (q ++ done.flatMap steps ++ n.statements) ++ [.note n.record] := by
    rw [hms, List.flatMap_append, List.flatMap_singleton]
    simp [steps, record]
  unfold underWay
  rw [hlast, List.rtakeWhile_concat_neg]
  simp [Statement.notes]

/-- Some of the steps of migrations: those of the first of them, and a part of the next one that does not reach
its record. -/
theorem exists_underWay (hms : ∀ m ∈ ms, m ∈ all) (h : ms.flatMap steps = p ++ rest) :
    ∃ done todo part, ms = done ++ todo ∧ p = done.flatMap steps ++ part ∧ todo.flatMap steps = part ++ rest ∧
      ∀ x ∈ part, x.notes = [] := by
  induction ms generalizing p with
  | nil =>
    obtain ⟨rfl, rfl⟩ := List.append_eq_nil_iff.1 h.symm
    exact ⟨[], [], [], rfl, rfl, rfl, fun _ h => nomatch h⟩
  | cons m ms ih =>
    obtain ⟨hm, hms⟩ := List.forall_mem_cons.1 hms
    rw [List.flatMap_cons, List.append_eq_append_iff] at h
    rcases h with ⟨q, rfl, hq⟩ | ⟨q, hq, rfl⟩
    · obtain ⟨done, todo, part, rfl, rfl, htodo, hpart⟩ := ih hms hq
      exact ⟨m :: done, todo, part, rfl, by simp, htodo, hpart⟩
    · -- the statements end within the steps of this migration, before its record or with it
      rcases List.eq_nil_or_concat q with rfl | ⟨q, z, rfl⟩
      · rw [List.append_nil] at hq
        exact ⟨[m], ms, [], rfl, by simp [hq], by simp, fun _ h => nomatch h⟩
      · have hstatements : m.statements = p ++ q := by
          unfold steps at hq
          rw [List.concat_eq_append, ← List.append_assoc] at hq
          exact (List.append_inj' hq rfl).1
        refine ⟨[], m :: ms, p, rfl, rfl, ?_, fun x hx => ?_⟩
        · rw [List.flatMap_cons, hq, List.append_assoc]
        · exact notes_of_mem_statements m hm x (by rw [hstatements]; exact List.mem_append_left q hx)

end Migration

namespace Database

open Migration (steps record pending underWay)

variable {d d' s : Database} {done todo : List Migration} {p rest : List Statement}

/-! ## Versions under way -/

theorem version_le_iff_of_done (hr : d.IsInRange) (hdone : ∀ m ∈ done, m ∈ Migration.all)
    (hs : s.records = d.records ++ done.map record) :
    s.IsInRange ∧ ∀ n, s.version ≤ n ↔ d.version ≤ n ∧ ∀ m ∈ done, m.version ≤ n := by
  have hall : ∀ P : Applied → Prop, (∀ a ∈ s.records, P a) ↔ (∀ a ∈ d.records, P a) ∧ ∀ m ∈ done, P m.record := by
    intro P
    rw [hs]
    simp [or_imp, forall_and]
  have hrange : s.IsInRange := (hall _).2 ⟨hr, fun m hm => Migration.version_le_maxVersion m (hdone m hm)⟩
  refine ⟨hrange, fun n => ?_⟩
  rw [version_le_iff hrange, version_le_iff hr, hall]
  simp [record]

/-- What is pending after some migrations are the others. -/
theorem pending_of_done (hr : d.IsInRange)
    (hms : Migration.all.filter (d.version < ·.version) = done ++ todo)
    (hs : s.records = d.records ++ done.map record) : pending s.version = todo.flatMap steps := by
  have hmem : ∀ m ∈ done ++ todo, m ∈ Migration.all ∧ d.version < m.version := by
    intro m hm
    rw [← hms] at hm
    simpa using List.mem_filter.1 hm
  obtain ⟨-, hversion⟩ := version_le_iff_of_done hr (fun m hm => (hmem m (List.mem_append_left _ hm)).1) hs
  obtain ⟨hd, hdone⟩ := (hversion s.version).1 le_rfl
  have hordered := Migration.ordered_all.filter (d.version < ·.version)
  rw [hms, List.pairwise_append] at hordered
  have htodo : ∀ m ∈ todo, s.version < m.version := by
    intro m hm
    have hdm := (hmem m (List.mem_append_right _ hm)).2
    have hle : s.version ≤ m.version - 1 := by
      refine (hversion _).2 ⟨by omega, fun n hn => ?_⟩
      have hnm := hordered.2.2 n hn m hm
      omega
    omega
  have hfilter : Migration.all.filter (s.version < ·.version) = todo := by
    calc Migration.all.filter (s.version < ·.version)
        = (Migration.all.filter (d.version < ·.version)).filter (s.version < ·.version) := by
          rw [List.filter_filter]
          refine List.filter_congr fun m _ => ?_
          by_cases h : s.version < m.version
          · simp [h, hd.trans_lt h]
          · simp [h]
      _ = todo := by
          rw [hms, List.filter_append, List.filter_eq_nil_iff.2, List.filter_eq_self.2, List.nil_append]
          · simpa using htodo
          · simpa using hdone
  unfold pending
  rw [hfilter]

/-! ## Opening -/

/-- The statements that opening a database carries out. -/
def plan (d : Database) : List Statement :=
  .createApplied :: pending d.version

theorem migrate_eq (d : Database) : d.migrate = d.executeAll d.plan :=
  rfl

/-- Opening again after some statements begins with the migration that is under way, or from the beginning if
there is a record that is no version. -/
theorem exists_plan (hplan : d.plan = .createApplied :: (p ++ rest))
    (hs : d.executeAll (.createApplied :: p) = (s, .ok ())) :
    ∃ part, s.plan = .createApplied :: (part ++ rest) ∧ (∀ x ∈ part, x ∈ p) ∧
      (d.IsInRange → (∀ x ∈ part, x.notes = []) ∧
        ∀ x, x ≠ .createApplied → (x ∈ underWay (.createApplied :: p) ↔ x ∈ part)) := by
  obtain ⟨-, -, hrecords⟩ := of_executeAll hs
  have hpending : pending d.version = p ++ rest := (List.cons.inj hplan).2
  by_cases hr : d.IsInRange
  · -- the migrations that were finished are recorded, and the version has risen above them
    have hall : ∀ m ∈ Migration.all.filter (d.version < ·.version), m ∈ Migration.all :=
      fun m hm => List.mem_of_mem_filter hm
    obtain ⟨done, todo, part, hms, rfl, htodo, hpart⟩ := Migration.exists_underWay hall hpending
    rw [hms] at hall
    have hrecords' : s.records = d.records ++ done.map record := by
      rw [hrecords, List.flatMap_cons, List.flatMap_append,
        Migration.flatMap_notes_flatMap_steps fun m hm => hall m (List.mem_append_left _ hm),
        Migration.flatMap_notes_of_forall hpart, List.append_nil]
      rfl
    refine ⟨part, ?_, fun x hx => List.mem_append_right _ hx, fun _ => ⟨hpart, fun x hx => ?_⟩⟩
    · unfold plan
      rw [pending_of_done hr hms hrecords', htodo]
    · rw [← List.cons_append, Migration.underWay_append hpart, List.mem_append]
      cases done with
      | nil =>
        have hfirst : underWay [.createApplied] = [.createApplied] := by decide
        rw [List.flatMap_nil, hfirst, List.mem_singleton]
        exact or_iff_right hx
      | cons m done =>
        rw [← List.singleton_append, Migration.underWay_flatMap_steps]
        simp
  · -- nothing that was recorded since makes up for the record
    have hr' : ¬ s.IsInRange := fun hr' => hr (hr'.of_append hrecords)
    refine ⟨p, ?_, fun x hx => hx, fun h => absurd h hr⟩
    unfold plan
    rw [version_eq_zero hr', ← hpending, version_eq_zero hr]

theorem migrate_eq_of_plan {part : List Statement} (hs : d.executeAll (.createApplied :: p) = (s, .ok ()))
    (hplan : s.plan = .createApplied :: (part ++ rest)) (hpart : ∀ x ∈ part, x ∈ p) :
    s.migrate = match part.findSome? Statement.refusal? with
      | some e => (s, .error e)
      | none => s.executeAll rest := by
  obtain ⟨-, hhas, -⟩ := of_executeAll hs
  have hrepeated : ∀ x ∈ Statement.createApplied :: part, s.Has x :=
    List.forall_mem_cons.2 ⟨hhas _ List.mem_cons_self, fun x hx => hhas x (List.mem_cons_of_mem _ (hpart x hx))⟩
  rw [migrate_eq, hplan, ← List.cons_append, executeAll_of_has hrepeated rest]
  rfl

/-! ## Stopping -/

/-- What is left of a database where opening it stops after some statements. -/
def stopped (d : Database) (k : Nat) : Database :=
  (d.executeAll (d.plan.take k)).1

/-- Wherever an opening stops that would have gone through, the next one takes the database to where the first
would have taken it, but for one case: the column has been added, and the migration that adds it is not
recorded. Then the database can never be opened again. -/
theorem migrate_stopped (h : d.migrate = (d', .ok ())) (hr : d.IsInRange) (k : Nat) :
    (d.stopped k).migrate =
      if .addTransient ∈ underWay (d.plan.take k) then (d.stopped k, .error (.repeatedColumn transientName))
      else (d', .ok ()) := by
  cases k with
  | zero => exact h
  | succ k =>
    have hplan : d.plan = .createApplied :: ((pending d.version).take k ++ (pending d.version).drop k) := by
      rw [List.take_append_drop]
      rfl
    have htake : d.plan.take (k + 1) = .createApplied :: (pending d.version).take k := rfl
    rw [migrate_eq, hplan, ← List.cons_append] at h
    obtain ⟨s, hs⟩ := exists_of_executeAll_append h
    obtain ⟨part, hpart, hmem, hunder⟩ := exists_plan hplan hs
    obtain ⟨hnotes, hiff⟩ := hunder hr
    have hstopped : d.stopped (k + 1) = s := by
      unfold stopped
      rw [htake, hs]
    rw [executeAll_append hs] at h
    rw [hstopped, htake, migrate_eq_of_plan hs hpart hmem, Statement.findSome?_refusal? hnotes]
    by_cases hadd : .addTransient ∈ part
    · rw [if_pos hadd, if_pos ((hiff _ (by decide)).2 hadd)]
    · rw [if_neg hadd, if_neg (mt (hiff _ (by decide)).1 hadd), h]

/-- A database of the first version of the schema with a configuration in it. -/
def dated : Database where
  applied := some [⟨1, "Initial schema"⟩]
  table := some ⟨false, [⟨"a", "A", "[\"run\"]", .integer 0, .integer 0, "2024-05-01T08:00:00+00:00"⟩]⟩

/-- It is brought up to date if opening it stopped before the column was added, and not if it stopped after the
index was made. -/
theorem migrate_stopped_dated :
    dated.migrate.2 = .ok () ∧ dated.IsInRange ∧ (dated.stopped 1).migrate = dated.migrate ∧
      (dated.stopped 3).migrate = (dated.stopped 3, .error (.repeatedColumn "transient")) := by
  obtain ⟨d', h⟩ : ∃ d', dated.migrate = (d', .ok ()) := ⟨_, rfl⟩
  have hr : dated.IsInRange := by decide
  refine ⟨by rw [h], hr, ?_, ?_⟩
  · rw [migrate_stopped h hr 1, if_neg (by decide), h]
  · rw [migrate_stopped h hr 3, if_pos (by decide)]
    rfl

/-- A new file is locked for good where the process stops right after the column was added. -/
theorem migrate_stopped_locked :
    ({} : Database).migrate.2 = .ok () ∧ ({} : Database).migrate.1.IsInRange ∧
      (stopped {} 4).migrate.2 ≠ .ok () ∧ (stopped {} 4).migrate.1 = stopped {} 4 := by
  refine ⟨?_, ?_, ?_, ?_⟩ <;> decide

/-! ## Opening twice -/

theorem pending_of_migrate (h : d.migrate = (s, .ok ())) (hr : s.IsInRange) : pending s.version = [] := by
  let done := Migration.all.filter (d.version < ·.version)
  obtain ⟨-, -, hrecords⟩ := of_executeAll (migrate_eq d ▸ h)
  have hdone : s.records = d.records ++ done.map record := by
    rw [hrecords]
    unfold plan pending
    rw [List.flatMap_cons, Migration.flatMap_notes_flatMap_steps fun m hm => List.mem_of_mem_filter hm]
    rfl
  exact pending_of_done (hr.of_append hdone) (List.append_nil done).symm hdone

theorem fst_migrate_migrate (d : Database) : d.migrate.1.migrate.1 = d.migrate.1 := by
  obtain ⟨p, rest, hplan, hs, hrest⟩ := exists_executed d d.plan
  rw [← migrate_eq] at hs hrest
  cases p with
  | nil =>
    -- the first statement was refused
    have hd : d = d.migrate.1 := (Prod.mk.inj hs).1
    rw [← hd]
    exact hd.symm
  | cons x p =>
    obtain ⟨rfl, -⟩ := List.cons.inj hplan
    obtain ⟨part, hpart, hmem, -⟩ := exists_plan hplan hs
    rw [migrate_eq_of_plan hs hpart hmem]
    -- what is repeated changes nothing, and what follows ends where it ended before
    cases part.findSome? Statement.refusal? with
    | some e => rfl
    | none =>
      show (d.migrate.1.executeAll rest).1 = d.migrate.1
      rw [hrest]

theorem snd_migrate_migrate (d : Database) (h : d.migrate.2 = .ok ()) (hr : d.migrate.1.IsInRange) :
    d.migrate.1.migrate.2 = .ok () ∧ 2 ≤ d.migrate.1.version := by
  have hpending := pending_of_migrate (Prod.ext rfl h) hr
  refine ⟨?_, Migration.two_le_of_pending_eq_nil hpending⟩
  rw [migrate_eq]
  unfold plan
  rw [hpending]
  rfl

end Database

end RecentLaunches
