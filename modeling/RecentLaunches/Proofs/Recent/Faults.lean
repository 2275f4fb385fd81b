/-
Which breach of the rules is reported. The search goes along the list with the mementos before each entry; after the first
`i` entries it has found nothing exactly if none of them is at fault (`firstBreach?_take_eq_none_iff`). So what it finds
is about the first entry at fault, and of its faults a repeated memento comes before another mode; a list that is too long
is reported before any entry is looked at.
-/
import RecentLaunches.Proofs.Recent.Rules
import Mathlib.Order.Bounds.Basic

namespace RecentLaunches.Recent

variable {mode : Mode} {e : Launch} {l : Recent} {seen : List Memento} {v : Violation} {i : Nat}

/-! ## Entries at fault -/

/-- The places of the entries that break the rules where they stand: an entry before has the memento, or the mode is
another one. -/
def faults (mode : Mode) (l : Recent) : Set Nat :=
  {i | ∃ h : i < l.length, l[i].memento ∈ mementos (l.take i) ∨ l[i].mode ≠ mode}

/-- There is no fault in a list exactly if there is none before its end. -/
theorem mem_lowerBounds_faults_iff (h : l.length ≤ i) : i ∈ lowerBounds (faults mode l) ↔ faults mode l = ∅ := by
  rw [Set.eq_empty_iff_forall_notMem]
  constructor
  · intro hbelow j hj
    exact absurd ((hbelow hj).trans_lt hj.1) (Nat.not_lt.2 h)
  · intro hnone j hj
    exact absurd hj (hnone j)

/-! ## The search -/

/-- One step of the search: a memento that was seen comes before another mode. -/
theorem firstBreach?_singleton_eq_some_iff : firstBreach? mode seen [e] = some v ↔
    e.memento ∈ seen ∧ v = .repeated mode e.memento ∨ e.memento ∉ seen ∧ e.mode ≠ mode ∧ v = .foreign mode e := by
  unfold firstBreach?
  simp only [List.contains_iff_mem]
  by_cases hm : e.memento ∈ seen
  · simp [hm, eq_comm]
  · by_cases hmode : e.mode = mode
    · simp [hm, hmode, firstBreach?]
    · simp [hm, hmode, eq_comm]

theorem firstBreach?_singleton_eq_none_iff : firstBreach? mode seen [e] = none ↔ e.memento ∉ seen ∧ e.mode = mode := by
  rw [firstBreach?_eq_none_iff]
  simp [mementos]

/-- What is found in a list is found in its front, or else in the rest with the mementos of the front seen. -/
theorem firstBreach?_append (mode : Mode) : ∀ (front rest : Recent) (seen : List Memento),
    firstBreach? mode seen (front ++ rest) =
      (firstBreach? mode seen front).or (firstBreach? mode ((mementos front).reverse ++ seen) rest)
  | [], rest, seen => rfl
  | e :: front, rest, seen => by
    have hseen : (mementos (e :: front)).reverse ++ seen = (mementos front).reverse ++ e.memento :: seen := by
      simp [mementos]
    rw [List.cons_append, firstBreach?, firstBreach?, firstBreach?_append mode front rest, hseen]
    split_ifs <;> rfl

theorem firstBreach?_take_succ (h : i < l.length) :
    firstBreach? mode [] (l.take (i + 1)) =
      (firstBreach? mode [] (l.take i)).or (firstBreach? mode (mementos (l.take i)).reverse [l[i]]) := by
  rw [List.take_succ_eq_append_getElem h, firstBreach?_append, List.append_nil]

/-- The step at a place finds nothing exactly if the entry there is not at fault. -/
theorem firstBreach?_getElem_eq_none_iff (h : i < l.length) :
    firstBreach? mode (mementos (l.take i)).reverse [l[i]] = none ↔ i ∉ faults mode l := by
  rw [firstBreach?_singleton_eq_none_iff, List.mem_reverse]
  constructor
  · rintro ⟨hnew, hmode⟩ ⟨_, hold | hother⟩
    · exact hnew hold
    · exact hother hmode
  · intro hsound
    refine ⟨fun hold => hsound ⟨h, .inl hold⟩, ?_⟩
    by_contra hother
    exact hsound ⟨h, .inr hother⟩

/-- What the search knows on its way: nothing was found exactly if no entry so far is at fault. -/
theorem firstBreach?_take_eq_none_iff (mode : Mode) (l : Recent) :
    ∀ i, firstBreach? mode [] (l.take i) = none ↔ i ∈ lowerBounds (faults mode l)
  | 0 => iff_of_true rfl fun _ _ => Nat.zero_le _
  | i + 1 => by
    have ih := firstBreach?_take_eq_none_iff mode l i
    rcases Nat.lt_or_ge i l.length with hi | hi
    · rw [firstBreach?_take_succ hi, Option.or_eq_none_iff, ih, firstBreach?_getElem_eq_none_iff hi]
      constructor
      · rintro ⟨hbelow, hsound⟩ j hj
        exact Nat.lt_of_le_of_ne (hbelow hj) fun heq => hsound (heq ▸ hj)
      · intro hbelow
        exact ⟨fun j hj => (Nat.le_succ i).trans (hbelow hj), fun h => Nat.not_succ_le_self i (hbelow h)⟩
    · -- there is no further entry
      have hsame : l.take (i + 1) = l.take i := by
        rw [List.take_of_length_le hi, List.take_of_length_le (Nat.le_succ_of_le hi)]
      rw [hsame, ih, mem_lowerBounds_faults_iff hi, mem_lowerBounds_faults_iff (Nat.le_succ_of_le hi)]

/-- The search finds nothing exactly if no entry is at fault. -/
theorem firstBreach?_eq_none_iff_faults : firstBreach? mode [] l = none ↔ faults mode l = ∅ := by
  have h := firstBreach?_take_eq_none_iff mode l l.length
  rwa [List.take_length, mem_lowerBounds_faults_iff le_rfl] at h

/-- What is found about a list is found about its first entry at fault. -/
theorem firstBreach?_eq_of_isLeast (h : IsLeast (faults mode l) i) (hi : i < l.length) :
    firstBreach? mode [] l = firstBreach? mode (mementos (l.take i)).reverse [l[i]] := by
  have hfront : firstBreach? mode [] (l.take i) = none := (firstBreach?_take_eq_none_iff mode l i).2 h.2
  have hfault : firstBreach? mode (mementos (l.take i)).reverse [l[i]] ≠ none :=
    fun hnone => (firstBreach?_getElem_eq_none_iff hi).1 hnone h.1
  conv_lhs => rw [← List.take_append_drop (i + 1) l]
  rw [firstBreach?_append, firstBreach?_take_succ hi, hfront, Option.none_or]
  obtain ⟨v, hv⟩ := Option.ne_none_iff_exists'.1 hfault
  rw [hv, Option.some_or]

/-- The search finds the first entry at fault, a repeated memento before another mode. -/
theorem firstBreach?_eq_some_iff : firstBreach? mode [] l = some v ↔
    ∃ i e, IsLeast (faults mode l) i ∧ l[i]? = some e ∧
      (e.memento ∈ mementos (l.take i) ∧ v = .repeated mode e.memento ∨
        e.memento ∉ mementos (l.take i) ∧ v = .foreign mode e) := by
  constructor
  · intro hv
    have hsome : (faults mode l).Nonempty := by
      rw [Set.nonempty_iff_ne_empty, ne_eq, ← firstBreach?_eq_none_iff_faults, hv]
      exact Option.some_ne_none v
    have hleast : IsLeast (faults mode l) (sInf (faults mode l)) := ⟨Nat.sInf_mem hsome, fun _ h => Nat.sInf_le h⟩
    have hi := hleast.1.1
    rw [firstBreach?_eq_of_isLeast hleast hi, firstBreach?_singleton_eq_some_iff, List.mem_reverse] at hv
    refine ⟨_, _, hleast, List.getElem?_eq_getElem hi, ?_⟩
    exact hv.imp_right fun ⟨hnew, _, hv⟩ => ⟨hnew, hv⟩
  · rintro ⟨i, e, hleast, he, hv⟩
    obtain ⟨hi, rfl⟩ := List.getElem?_eq_some_iff.1 he
    rw [firstBreach?_eq_of_isLeast hleast hi, firstBreach?_singleton_eq_some_iff, List.mem_reverse]
    exact hv.imp_right fun ⟨hnew, hv⟩ => ⟨hnew, hleast.1.2.resolve_left hnew, hv⟩

/-! ## The report -/

theorem violation?_eq_some_iff : violation? mode l = some v ↔
    capacity < l.length ∧ v = .tooLong mode l.length ∨ l.length ≤ capacity ∧ firstBreach? mode [] l = some v := by
  unfold violation?
  split_ifs with h
  · simp [h, Nat.not_le.2 h, eq_comm]
  · simp [h, Nat.le_of_not_lt h]

/-- The check of a list is sound and complete, and says what is wrong first. It passes exactly if there are at most five
entries, whose mementos are pairwise different and whose modes are that of the list. Otherwise it speaks of the length, if
there are more, and else of the first entry whose memento stands before it or whose mode is another one: that the list has
its memento twice, if it has, and its mode otherwise. -/
theorem violation?_reports_first (mode : Mode) (l : Recent) :
    (violation? mode l = none ↔
      l.length ≤ capacity ∧ (mementos l).Pairwise (· ≠ ·) ∧ ∀ e ∈ l, e.mode = mode) ∧
    ∀ text, (violation? mode l).map Violation.message = some text ↔
      capacity < l.length ∧
        text = mode.name ++ " history has " ++ toString l.length ++ " entries, limit is " ++ toString capacity ∨
      l.length ≤ capacity ∧ ∃ i e, IsLeast (faults mode l) i ∧ l[i]? = some e ∧
        (e.memento ∈ mementos (l.take i) ∧ text = mode.name ++ " history lists " ++ e.memento ++ " twice" ∨
          e.memento ∉ mementos (l.take i) ∧
            text = mode.name ++ " history holds a " ++ e.mode.name ++ " entry for " ++ e.memento) := by
  constructor
  · rw [violation?_eq_none_iff]
    exact ⟨fun hw => ⟨hw.bounded, hw.distinct, hw.ownMode⟩, fun ⟨hb, hd, hm⟩ => ⟨hb, hd, hm⟩⟩
  · intro text
    simp only [Option.map_eq_some_iff, violation?_eq_some_iff, firstBreach?_eq_some_iff]
    constructor
    · rintro ⟨v, ⟨hlong, rfl⟩ | ⟨hfit, i, e, hleast, he, ⟨hold, rfl⟩ | ⟨hnew, rfl⟩⟩, rfl⟩
      · exact .inl ⟨hlong, rfl⟩
      · exact .inr ⟨hfit, i, e, hleast, he, .inl ⟨hold, rfl⟩⟩
      · exact .inr ⟨hfit, i, e, hleast, he, .inr ⟨hnew, rfl⟩⟩
    · rintro (⟨hlong, rfl⟩ | ⟨hfit, i, e, hleast, he, ⟨hold, rfl⟩ | ⟨hnew, rfl⟩⟩)
      · exact ⟨_, .inl ⟨hlong, rfl⟩, rfl⟩
      · exact ⟨_, .inr ⟨hfit, i, e, hleast, he, .inl ⟨hold, rfl⟩⟩, rfl⟩
      · exact ⟨_, .inr ⟨hfit, i, e, hleast, he, .inr ⟨hnew, rfl⟩⟩, rfl⟩

example : (violation? .run [⟨"a", .run, "a"⟩, ⟨"a", .debug, "a"⟩, ⟨"b", .debug, "b"⟩]).map Violation.message =
    some "run history lists a twice" := by
  decide

end RecentLaunches.Recent
