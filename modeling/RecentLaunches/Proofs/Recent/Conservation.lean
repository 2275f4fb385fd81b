/-
What a promotion does with each entry of a list, place by place, whatever sameness it goes by. At most one old entry
leaves, and which one is said without the promotion: the first entry of the launched configuration, unless it is the head,
or the last entry of a full list that has none. The entry that makes room is dropped and the last one is given back; all
others stay where they were among each other, behind the launch.
-/
import RecentLaunches.Proofs.Recent.Promotion
import Mathlib.Order.Bounds.Basic

namespace RecentLaunches.Recent

variable {same : Sameness} {e : Launch} {l : Recent} {m : Memento} {i j : Nat}

/-! ## Places of a configuration -/

/-- The places of the entries that count as launches of a configuration. -/
def places (same : Sameness) (m : Memento) (l : Recent) : Set Nat :=
  {i | ∃ h : i < l.length, same l[i].memento m = true}

theorem position?_eq_some_iff : position? same m l = some i ↔ IsLeast (places same m l) i := by
  unfold position?
  rw [List.findIdx?_eq_some_iff_getElem]
  constructor
  · rintro ⟨hi, hsame, hfirst⟩
    refine ⟨⟨hi, hsame⟩, ?_⟩
    rintro j ⟨hj, hsame'⟩
    by_contra hlt
    exact hfirst j (Nat.lt_of_not_le hlt) hsame'
  · rintro ⟨⟨hi, hsame⟩, hleast⟩
    refine ⟨hi, hsame, fun j hj h => ?_⟩
    exact absurd (hleast ⟨hj.trans hi, h⟩) (Nat.not_le.2 hj)

theorem places_eq_empty_iff : places same m l = ∅ ↔ ∀ x ∈ l, same x.memento m = false := by
  rw [Set.eq_empty_iff_forall_notMem]
  constructor
  · intro h x hx
    obtain ⟨i, hi, rfl⟩ := List.getElem_of_mem hx
    rw [← Bool.not_eq_true]
    exact fun hsame => h i ⟨hi, hsame⟩
  · rintro h i ⟨hi, hsame⟩
    rw [h _ (List.getElem_mem hi)] at hsame
    cases hsame

theorem position?_eq_none_iff : position? same m l = none ↔ places same m l = ∅ := by
  rw [places_eq_empty_iff]
  exact List.findIdx?_eq_none_iff

/-- The first place, if it is one, is the least. -/
theorem isLeast_zero (h : 0 ∈ places same m l) : IsLeast (places same m l) 0 :=
  ⟨h, fun _ _ => Nat.zero_le _⟩

/-! ## The entry that leaves -/

/-- The place of the entry that leaves a list when a configuration is launched: that of its first entry, unless this is the
head, or the last place of a full list without one. -/
inductive LeavesAt (same : Sameness) (m : Memento) (l : Recent) : Nat → Prop
  | replaced {i : Nat} (first : IsLeast (places same m l) i) (behind : 0 < i) : LeavesAt same m l i
  | evicted (new : places same m l = ∅) (full : l.length = capacity) : LeavesAt same m l (l.length - 1)

theorem LeavesAt.lt_length (h : LeavesAt same m l i) : i < l.length := by
  cases h with
  | replaced first behind => exact first.1.1
  | evicted new full => exact Nat.sub_one_lt (full ▸ by decide)

theorem not_leavesAt_of_zero_mem (h : 0 ∈ places same m l) : ¬LeavesAt same m l i := by
  rintro (⟨first, behind⟩ | ⟨new, -⟩)
  · exact behind.ne (first.unique (isLeast_zero h)).symm
  · rw [new] at h
    exact h

theorem leavesAt_iff_of_isLeast (h : IsLeast (places same m l) j) (hj : 0 < j) : LeavesAt same m l i ↔ i = j := by
  constructor
  · rintro (⟨first, -⟩ | ⟨new, -⟩)
    · exact first.unique h
    · exact absurd h.1 (new ▸ Set.notMem_empty j)
  · rintro rfl
    exact .replaced h hj

theorem leavesAt_iff_of_new (h : places same m l = ∅) :
    LeavesAt same m l i ↔ l.length = capacity ∧ i = l.length - 1 := by
  constructor
  · rintro (⟨first, -⟩ | ⟨-, full⟩)
    · exact absurd first.1 (h ▸ Set.notMem_empty i)
    · exact ⟨full, rfl⟩
  · rintro ⟨full, rfl⟩
    exact .evicted h full

/-- One entry leaves at most. -/
theorem subsingleton_leavesAt (same : Sameness) (m : Memento) (l : Recent) :
    {i | LeavesAt same m l i}.Subsingleton := by
  rintro i (⟨first, behind⟩ | ⟨new, full⟩) j hj
  · exact ((leavesAt_iff_of_isLeast first behind).1 hj).symm
  · exact ((leavesAt_iff_of_new new).1 hj).2.symm

/-! ## What is left of the list -/

/-- A launch of the head leaves the list alone. -/
theorem promote_of_zero_mem (h : 0 ∈ places same e.memento l) : promote same e l = ⟨l, none⟩ := by
  rw [promote, position?_eq_some_iff.2 (isLeast_zero h)]

/-- An entry that makes room for the launch keeps the others within the capacity. -/
theorem promote_of_isLeast (hl : l.length ≤ capacity) (h : IsLeast (places same e.memento l) i) (hi : 0 < i) :
    promote same e l = ⟨e :: l.eraseIdx i, none⟩ := by
  obtain ⟨k, rfl⟩ := Nat.exists_eq_add_one.2 hi
  have hfit : (e :: l.eraseIdx (k + 1)).length ≤ capacity := by
    have hlt := h.1.1
    rw [List.length_cons, List.length_eraseIdx_of_lt hlt]
    omega
  rw [promote, position?_eq_some_iff.2 h]
  exact bounded_eq_self hfit

/-- Without an entry to make room the list grows, as far as it can. -/
theorem launches_promote_of_new (hl : l.length ≤ capacity) (h : places same e.memento l = ∅) :
    (promote same e l).launches = (e :: l).take capacity := by
  rw [promote, position?_eq_none_iff.2 h]
  exact launches_bounded (Nat.succ_le_succ hl)

/-- Where the launch is not one of the head, it comes before the old entries, in their order and without the one that
leaves. -/
theorem launches_promote_of_leavesAt (hl : l.length ≤ capacity) (h : LeavesAt same e.memento l i) :
    (promote same e l).launches = e :: l.eraseIdx i := by
  cases h with
  | replaced first behind => rw [promote_of_isLeast hl first behind]
  | evicted new full =>
    have hend : capacity = l.length - 1 + 1 := by
      rw [full]
      rfl
    rw [launches_promote_of_new hl new, hend, List.take_succ_cons, ← List.dropLast_eq_take, List.eraseIdx_length_sub_one]

theorem launches_promote_of_not_leavesAt (hl : l.length ≤ capacity) (hhead : 0 ∉ places same e.memento l)
    (h : ∀ i, ¬LeavesAt same e.memento l i) : (promote same e l).launches = e :: l := by
  rcases hp : position? same e.memento l with _ | i
  · have new := position?_eq_none_iff.1 hp
    have hroom : l.length < capacity := lt_of_le_of_ne hl fun hfull => h _ (.evicted new hfull)
    rw [launches_promote_of_new hl new, List.take_of_length_le hroom]
  · -- a first entry of the configuration would leave, or be the head
    have first := position?_eq_some_iff.1 hp
    rcases Nat.eq_zero_or_pos i with rfl | hi
    · exact absurd first.1 hhead
    · exact absurd (.replaced first hi) (h i)

/-- A promotion loses nothing but one entry, and no other than it may. Whatever counts as the same, a list within its
capacity stays so. If the launch is one of the head, the list stays as it is. Otherwise the launch comes before the old
entries, each of which stays once and in its place among the others, but for the one that leaves, if there is one: the
first entry of the launched configuration, or the last one of a full list that has none. That last one, and nothing
else, is given back. -/
theorem promote_conserves (same : Sameness) (e : Launch) (hl : l.length ≤ capacity) :
    let p := promote same e l
    p.launches.length ≤ capacity ∧
    {i | LeavesAt same e.memento l i}.Subsingleton ∧
    (0 ∈ places same e.memento l → p = ⟨l, none⟩ ∧ ∀ i, ¬LeavesAt same e.memento l i) ∧
    (0 ∉ places same e.memento l → (∀ i, ¬LeavesAt same e.memento l i) → p.launches = e :: l) ∧
    (∀ i, LeavesAt same e.memento l i → i < l.length ∧ p.launches = e :: l.eraseIdx i) ∧
    ∀ gone, p.evicted = some gone ↔
      places same e.memento l = ∅ ∧ l.length = capacity ∧ l[l.length - 1]? = some gone := by
  intro p
  refine ⟨length_promote hl, subsingleton_leavesAt same e.memento l, fun hhead => ?_,
    launches_promote_of_not_leavesAt hl, fun i hi => ?_, fun gone => ?_⟩
  · exact ⟨promote_of_zero_mem hhead, fun i => not_leavesAt_of_zero_mem hhead⟩
  · exact ⟨hi.lt_length, launches_promote_of_leavesAt hl hi⟩
  · rw [evicted_promote_eq_some_iff hl, places_eq_empty_iff, ← List.getLast?_eq_getElem?]
    tauto

/-- A full list. -/
def full : Recent :=
  ["a", "b", "c", "d", "e"].map fun m => ⟨m, .run, m⟩

/-- By a sameness that is neither reflexive nor symmetric, an entry behind the head makes room though the last one is of the
same configuration too; nothing falls off the full list, but for a launch that is of no entry. -/
theorem promote_conserves_full :
    let same : Sameness := fun a b => [("d", "x"), ("e", "x")].contains (a, b)
    full.length ≤ capacity ∧ IsLeast (places same "x" full) 3 ∧ places same "d" full = ∅ ∧
      (promote same ⟨"x", .run, "x"⟩ full).launches = ⟨"x", .run, "x"⟩ :: full.eraseIdx 3 ∧
      (promote same ⟨"x", .run, "x"⟩ full).evicted = none ∧
      (promote same ⟨"d", .run, "again"⟩ full).launches = ⟨"d", .run, "again"⟩ :: full.eraseIdx 4 ∧
      (promote same ⟨"d", .run, "again"⟩ full).evicted = some ⟨"e", .run, "e"⟩ := by
  intro same
  have hl : full.length ≤ capacity := by decide
  have hfirst : IsLeast (places same "x" full) 3 := position?_eq_some_iff.1 (by decide)
  have hnew : places same "d" full = ∅ := position?_eq_none_iff.1 (by decide)
  obtain ⟨-, -, -, -, hreplaced, hkept⟩ := promote_conserves same ⟨"x", .run, "x"⟩ hl
  obtain ⟨-, -, -, -, hevicted, hlost⟩ := promote_conserves same ⟨"d", .run, "again"⟩ hl
  refine ⟨hl, hfirst, hnew, (hreplaced 3 (.replaced hfirst (by decide))).2, ?_, (hevicted 4 (.evicted hnew rfl)).2,
    (hlost _).2 ⟨hnew, rfl, rfl⟩⟩
  rw [Option.eq_none_iff_forall_ne_some]
  rintro gone hgone
  exact Set.notMem_empty 3 (((hkept gone).1 hgone).1 ▸ hfirst.1)

end RecentLaunches.Recent
