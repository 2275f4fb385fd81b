/-
Changes of the schema, one statement at a time. A statement that was carried out stays done: repeated at any
later time it either changes nothing or is refused. The version of the schema is the largest one recorded, as
long as all of them can be understood as versions.
-/
import RecentLaunches.Database.Schema
import Mathlib.Tactic

namespace RecentLaunches

/-! ## Statements -/

namespace Statement

def notes : Statement → List Applied
  | note record => [record]
  | _ => []

/-- Why a statement is refused that was carried out before, if it is. -/
def refusal? : Statement → Option DatabaseFault
  | addTransient => some (.repeatedColumn Database.transientName)
  | note _ => some .repeatedVersion
  | _ => none

/-- Among statements that make no records only the new column cannot be made twice. -/
theorem findSome?_refusal? {p : List Statement} (h : ∀ x ∈ p, x.notes = []) :
    p.findSome? refusal? = if addTransient ∈ p then some (.repeatedColumn Database.transientName) else none := by
  induction p with
  | nil => rfl
  | cons x p ih =>
    obtain ⟨hx, hp⟩ := List.forall_mem_cons.1 h
    rw [List.findSome?_cons, ih hp]
    cases x with
    | addTransient => simp [refusal?]
    | note record => cases hx
    | createApplied => simp [refusal?]
    | createTable => simp [refusal?]
    | createIndex => simp [refusal?]

end Statement

namespace Database

variable {d d' s : Database} {x : Statement} {p q : List Statement}

/-- The records of migrations, none if there is no table for them. -/
def records (d : Database) : List Applied :=
  d.applied.getD []

/-- What a statement is to bring about is there. -/
def Has (d : Database) : Statement → Prop
  | .createApplied => d.applied.isSome = true
  | .createTable => d.table.isSome = true
  | .addTransient => ∃ t, d.table = some t ∧ t.hasTransient = true
  | .createIndex => (∃ t, d.table = some t ∧ t.hasTransient = true) ∧ d.indexed = true
  | .note record => ∃ records, d.applied = some records ∧ ∃ a ∈ records, a.version = record.version

/-- A database that has all that another one has: more records at the end, and at most the new column more in
the table of configurations. -/
structure Grows (d d' : Database) : Prop where
  applied : ∀ l, d.applied = some l → ∃ m, d'.applied = some (l ++ m)
  table : ∀ t, d.table = some t → d'.table = some t ∨ (t.hasTransient = false ∧ d'.table = some t.addTransient)
  indexed : d.indexed = true → d'.indexed = true

theorem Grows.refl (d : Database) : d.Grows d :=
  ⟨fun l h => ⟨[], by rw [h, List.append_nil]⟩, fun _ h => .inl h, fun h => h⟩

theorem Grows.trans {d'' : Database} (h : d.Grows d') (h' : d'.Grows d'') : d.Grows d'' := by
  refine ⟨fun l hl => ?_, fun t ht => ?_, fun hi => h'.indexed (h.indexed hi)⟩
  · obtain ⟨m, hm⟩ := h.applied l hl
    obtain ⟨m', hm'⟩ := h'.applied _ hm
    exact ⟨m ++ m', by rw [hm', List.append_assoc]⟩
  · rcases h.table t ht with ht' | ⟨hc, ht'⟩
    · exact h'.table t ht'
    · rcases h'.table _ ht' with ht'' | ⟨hc', -⟩
      · exact .inr ⟨hc, ht''⟩
      · cases hc'

theorem Grows.hasTransient (h : d.Grows d') (hc : ∃ t, d.table = some t ∧ t.hasTransient = true) :
    ∃ t, d'.table = some t ∧ t.hasTransient = true := by
  obtain ⟨t, ht, hc⟩ := hc
  rcases h.table t ht with ht' | ⟨hn, -⟩
  · exact ⟨t, ht', hc⟩
  · rw [hc] at hn
    cases hn

theorem Grows.has (h : d.Grows d') (hx : d.Has x) : d'.Has x := by
  cases x with
  | createApplied =>
    obtain ⟨l, hl⟩ := Option.isSome_iff_exists.1 hx
    obtain ⟨m, hm⟩ := h.applied l hl
    exact Option.isSome_iff_exists.2 ⟨_, hm⟩
  | createTable =>
    obtain ⟨t, ht⟩ := Option.isSome_iff_exists.1 hx
    rcases h.table t ht with ht' | ⟨-, ht'⟩ <;> exact Option.isSome_iff_exists.2 ⟨_, ht'⟩
  | addTransient => exact h.hasTransient hx
  | createIndex => exact ⟨h.hasTransient hx.1, h.indexed hx.2⟩
  | note record =>
    obtain ⟨l, hl, a, ha, hv⟩ := hx
    obtain ⟨m, hm⟩ := h.applied l hl
    exact ⟨_, hm, a, List.mem_append_left m ha, hv⟩

/-- What a statement does that can be carried out. -/
theorem of_execute (h : d.execute x = .ok d') : d.Grows d' ∧ d'.Has x ∧ d'.records = d.records ++ x.notes := by
  cases x with
  | createApplied =>
    obtain rfl := Except.ok.inj h
    refine ⟨⟨fun l hl => ⟨[], ?_⟩, fun t ht => .inl ht, fun hi => hi⟩, rfl, (List.append_nil _).symm⟩
    rw [hl, List.append_nil]
    rfl
  | createTable =>
    obtain rfl := Except.ok.inj h
    refine ⟨⟨fun l hl => ⟨[], ?_⟩, fun t ht => .inl ?_, fun hi => hi⟩, rfl, (List.append_nil _).symm⟩
    · rw [List.append_nil]
      exact hl
    · simp [ht]
  | addTransient =>
    simp only [execute] at h
    split at h
    · cases h
    rename_i t ht
    split_ifs at h with hc
    cases h
    -- the one statement that changes a table that is there
    refine ⟨⟨fun l hl => ⟨[], ?_⟩, fun u hu => .inr ?_, fun hi => hi⟩, ⟨_, rfl, rfl⟩, (List.append_nil _).symm⟩
    · rw [List.append_nil]
      exact hl
    · rw [ht] at hu
      cases hu
      exact ⟨Bool.eq_false_iff.2 hc, rfl⟩
  | createIndex =>
    simp only [execute] at h
    split at h
    · cases h
    rename_i t ht
    split_ifs at h with hc
    cases h
    refine ⟨⟨fun l hl => ⟨[], ?_⟩, fun u hu => .inl hu, fun _ => rfl⟩, ⟨⟨t, ht, hc⟩, rfl⟩,
      (List.append_nil _).symm⟩
    rw [List.append_nil]
    exact hl
  | note record =>
    simp only [execute] at h
    split at h
    · cases h
    rename_i l hl
    split_ifs at h
    cases h
    refine ⟨⟨fun m hm => ⟨[record], ?_⟩, fun u hu => .inl hu, fun hi => hi⟩,
      ⟨_, rfl, record, List.mem_append_right _ (List.mem_singleton.2 rfl), rfl⟩, ?_⟩
    · rw [hl] at hm
      cases hm
      rfl
    · show l ++ [record] = d.applied.getD [] ++ [record]
      rw [hl]
      rfl

/-- What was carried out before changes nothing or is refused. -/
theorem Has.execute_eq (h : d.Has x) :
    d.execute x = match x.refusal? with
      | some e => .error e
      | none => .ok d := by
  obtain ⟨applied, table, indexed⟩ := d
  cases x with
  | createApplied =>
    obtain ⟨l, rfl⟩ := Option.isSome_iff_exists.1 h
    rfl
  | createTable =>
    obtain ⟨t, rfl⟩ := Option.isSome_iff_exists.1 h
    rfl
  | addTransient =>
    obtain ⟨t, rfl, hc⟩ := h
    simp only [execute, hc]
    rfl
  | createIndex =>
    obtain ⟨⟨t, rfl, hc⟩, rfl⟩ := h
    simp only [execute, hc]
    rfl
  | note record =>
    obtain ⟨l, rfl, a, ha, hv⟩ := h
    have hany : l.any (·.version == record.version) = true := List.any_eq_true.2 ⟨a, ha, by simp [hv]⟩
    simp only [execute, hany]
    rfl

/-! ## Many statements -/

theorem executeAll_cons_ok (h : d.execute x = .ok s) (q : List Statement) :
    d.executeAll (x :: q) = s.executeAll q := by
  simp only [executeAll, h]

theorem executeAll_cons_error {e : DatabaseFault} (h : d.execute x = .error e) (q : List Statement) :
    d.executeAll (x :: q) = (d, .error e) := by
  simp only [executeAll, h]

theorem executeAll_append (h : d.executeAll p = (s, .ok ())) (q : List Statement) :
    d.executeAll (p ++ q) = s.executeAll q := by
  induction p generalizing d with
  | nil =>
    cases h
    rfl
  | cons x p ih =>
    rcases hx : d.execute x with e | d'
    · rw [executeAll_cons_error hx] at h
      cases h
    · rw [executeAll_cons_ok hx] at h
      rw [List.cons_append, executeAll_cons_ok hx, ih h]

theorem exists_of_executeAll_append (h : d.executeAll (p ++ q) = (d', .ok ())) :
    ∃ s, d.executeAll p = (s, .ok ()) := by
  induction p generalizing d with
  | nil => exact ⟨d, rfl⟩
  | cons x p ih =>
    rw [List.cons_append] at h
    rcases hx : d.execute x with e | d''
    · rw [executeAll_cons_error hx] at h
      cases h
    · rw [executeAll_cons_ok hx] at h ⊢
      exact ih h

theorem of_executeAll (h : d.executeAll p = (s, .ok ())) :
    d.Grows s ∧ (∀ x ∈ p, s.Has x) ∧ s.records = d.records ++ p.flatMap Statement.notes := by
  induction p generalizing d with
  | nil =>
    cases h
    exact ⟨.refl _, (fun _ h => nomatch h), (List.append_nil _).symm⟩
  | cons x p ih =>
    rcases hx : d.execute x with e | d'
    · rw [executeAll_cons_error hx] at h
      cases h
    · rw [executeAll_cons_ok hx] at h
      obtain ⟨hgrows, hhas, hrecords⟩ := of_execute hx
      obtain ⟨hgrows', hall, hrecords'⟩ := ih h
      refine ⟨hgrows.trans hgrows', List.forall_mem_cons.2 ⟨hgrows'.has hhas, hall⟩, ?_⟩
      rw [hrecords', hrecords, List.append_assoc, List.flatMap_cons]

/-- Statements are carried out up to some place; there they end, or the next one is refused. -/
theorem exists_executed (d : Database) (p : List Statement) :
    ∃ q rest, p = q ++ rest ∧ d.executeAll q = ((d.executeAll p).1, .ok ()) ∧
      (d.executeAll p).1.executeAll rest = d.executeAll p := by
  induction p generalizing d with
  | nil => exact ⟨[], [], rfl, rfl, rfl⟩
  | cons x p ih =>
    rcases hx : d.execute x with e | d'
    · rw [executeAll_cons_error hx]
      exact ⟨[], x :: p, rfl, rfl, executeAll_cons_error hx p⟩
    · rw [executeAll_cons_ok hx]
      obtain ⟨q, rest, rfl, hq, hrest⟩ := ih d'
      exact ⟨x :: q, rest, rfl, by rw [executeAll_cons_ok hx, hq], hrest⟩

/-- Statements that were carried out before change nothing, and the first of them that is refused ends it. -/
theorem executeAll_of_has (h : ∀ x ∈ p, d.Has x) (q : List Statement) :
    d.executeAll (p ++ q) = match p.findSome? Statement.refusal? with
      | some e => (d, .error e)
      | none => d.executeAll q := by
  induction p with
  | nil => rfl
  | cons x p ih =>
    obtain ⟨hx, hp⟩ := List.forall_mem_cons.1 h
    have hexecute := hx.execute_eq
    rw [List.cons_append, List.findSome?_cons]
    rcases hr : x.refusal? with _ | e <;> rw [hr] at hexecute
    · rw [executeAll_cons_ok hexecute, ih hp]
    · exact executeAll_cons_error hexecute _

/-! ## Versions -/

/-- Whether all records can be understood as versions, as far as they are not too large. -/
def IsInRange (d : Database) : Prop :=
  ∀ a ∈ d.records, a.version ≤ maxVersion

instance : Decidable d.IsInRange :=
  inferInstanceAs (Decidable (∀ a ∈ d.records, a.version ≤ maxVersion))

theorem IsInRange.of_append {l : List Applied} (h : s.IsInRange) (hs : s.records = d.records ++ l) : d.IsInRange := by
  intro a ha
  refine h a ?_
  rw [hs]
  exact List.mem_append_left l ha

/-- The version is the largest one recorded, and zero if there is none above. -/
theorem version_le_iff (h : d.IsInRange) (n : Nat) : d.version ≤ n ↔ ∀ a ∈ d.records, a.version ≤ n := by
  unfold version
  rcases hm : ((d.applied.getD []).map (·.version)).max? with _ | v
  · have hnil : d.records = [] := List.map_eq_nil_iff.1 (List.max?_eq_none_iff.1 hm)
    rw [hm]
    simp [hnil]
  · obtain ⟨hmem, hle⟩ := List.max?_eq_some_iff.1 hm
    obtain ⟨a, ha, rfl⟩ := List.mem_map.1 hmem
    have hv := h a ha
    have hall : (∀ b ∈ d.records, b.version ≤ n) ↔ a.version ≤ n :=
      ⟨fun hb => hb a ha, fun hn b hb => (hle _ (List.mem_map_of_mem hb)).trans hn⟩
    rw [hall, hm]
    simp only
    split_ifs <;> omega

/-- A record that is too large for a version hides all others. -/
theorem version_eq_zero (h : ¬ d.IsInRange) : d.version = 0 := by
  unfold IsInRange at h
  push Not at h
  obtain ⟨a, ha, hv⟩ := h
  unfold version
  rcases hm : ((d.applied.getD []).map (·.version)).max? with _ | v
  · rw [hm]
  · obtain ⟨-, hle⟩ := List.max?_eq_some_iff.1 hm
    have hva := hle _ (List.mem_map_of_mem ha)
    rw [hm]
    simp only
    rw [if_neg (by omega)]

end Database

end RecentLaunches
